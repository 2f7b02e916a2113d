import ReplicaKeeper.Proofs.Reconcile.Rounds

/-!
# A reconcile without its states

What a session does step by step, as one function from the store to a finding: `examine`.  The
finding is then reported, `announce`.  A session that starts at the beginning does nothing else,
`run_eq`, so that what a reconcile does to a store is read off `examine`, where no state is kept
between the calls.
-/

set_option autoImplicit false

namespace ReplicaKeeper.Reconcile

variable {σ : Type}

/-! ## Straight on -/

/-- Asks for candidates one after another until one can be read.  When none can, the error is that
of the last one. -/
def readFirst (store : Store σ) (scaler : Scaler) :
    TypedReference → List TypedReference → σ → Except ApiError Deployment × σ
  | last, [], world => store.getDeployment (candidateKey scaler last) world
  | first, next :: others, world =>
      match store.getDeployment (candidateKey scaler first) world with
      | (.ok deployment, world) => (.ok deployment, world)
      | (.error _, world) => readFirst store scaler next others world

/-- What the answer to a patch comes to. -/
def Finding.ofPatch : Except ApiError Deployment → Finding
  | .ok _ => .scaled
  | .error error => .patchRefused error

/-- Makes a Deployment that was read what it should be. -/
def bring (config : Config) (store : Store σ) (scaler : Scaler) (deployment : Deployment)
    (world : σ) : Finding × σ :=
  match scaler.ownerReference? with
  | none => (.ownerIncomplete, world)
  | some owner =>
      match desired scaler owner deployment with
      | .error error => (.ownerRefused error, world)
      | .ok wanted =>
          let patched := store.patchDeployment (targetKey scaler deployment)
            (patchTo config deployment wanted) world
          (.ofPatch patched.1, patched.2)

/-- What the end of a search comes to. -/
def settle (config : Config) (store : Store σ) (scaler : Scaler)
    (read : Except ApiError Deployment) (world : σ) : Finding × σ :=
  match read with
  | .error error => (.candidatesUnreadable error, world)
  | .ok deployment => bring config store scaler deployment world

/-- Looks for a candidate that can be read, and brings it to what it should be. -/
def search (config : Config) (store : Store σ) (scaler : Scaler) (first : TypedReference)
    (others : List TypedReference) (world : σ) : Finding × σ :=
  let read := readFirst store scaler first others world
  settle config store scaler read.1 read.2

/-- A search goes by the answer for the first candidate: it ends, or it goes on with the others. -/
theorem search_eq (config : Config) (store : Store σ) (scaler : Scaler) (first : TypedReference)
    (others : List TypedReference) (world : σ) :
    search config store scaler first others world =
      let answered := store.getDeployment (candidateKey scaler first) world
      match answered.1, others with
      | .ok deployment, _ => bring config store scaler deployment answered.2
      | .error error, [] => (.candidatesUnreadable error, answered.2)
      | .error _, next :: others => search config store scaler next others answered.2 := by
  cases others with
  | nil =>
      rw [search, readFirst]
      obtain ⟨answer, after⟩ := store.getDeployment (candidateKey scaler first) world
      cases answer <;> rfl
  | cons next others =>
      rw [search, readFirst]
      obtain ⟨answer, after⟩ := store.getDeployment (candidateKey scaler first) world
      cases answer <;> rfl

/-- What the answer to the request for the workload comes to. -/
def resolve (config : Config) (store : Store σ) (scaler : Scaler)
    (answer : Except ApiError Workload) (world : σ) : Finding × σ :=
  match answer with
  | .error error => (.workloadUnreadable error, world)
  | .ok workload =>
      if isIntended scaler workload then
        match candidatesOf config workload with
        | [] => (.noCandidate, world)
        | first :: others => search config store scaler first others world
      else (.otherWorkload, world)

/-- Brings a scaler into effect, up to the first stage that fails. -/
def examine (config : Config) (store : Store σ) (scaler : Scaler) (world : σ) : Finding × σ :=
  let fetched := store.getWorkload (workloadKey scaler) world
  resolve config store scaler fetched.1 fetched.2

/-- Writes what was found to the status. -/
def announce (now : Time) (config : Config) (store : Store σ) (scaler : Scaler) (finding : Finding)
    (world : σ) : Except StepError Outcome × σ :=
  let answered := store.updateStatus (scaler.reporting (finding.condition config now)) world
  (finding.conclude config answered.1, answered.2)

/-! ## The stages from the last one -/

namespace Session

variable {now : Time} {config : Config} (store : Store σ) {session : Session} (world : σ)

theorem run_of_some {request : Request} (h : (session.nextStep now config).2 = some request) :
    session.run now config store world =
      Session.run now config store
        { session with
          state := (session.nextStep now config).1
          response := some (store.send request world).1 }
        (store.send request world).2 := by
  rw [← run_advance, advance_of_some store world h]

/-- Once the status is written, its answer and the outcome are all that count. -/
theorem run_written {answer : Except ApiError Scaler} {finding : Finding}
    (hstage : session.state.stage = .awaiting .afterUpdateStatus)
    (hresponse : session.response = some (.statusUpdated answer))
    (houtcome : session.state.outcome = finding.outcome config) :
    session.run now config store world = (finding.conclude config answer, world) := by
  have hnone : (session.nextStep now config).2 = none :=
    (session.nextStep_move.quiet_of_rank_le (by rw [hstage]; exact Nat.le_refl 1)).1
  rw [← run_advance, advance_of_none store world hnone]
  cases answer with
  | ok written =>
      have hstep : session.nextStep now config = ({ session.state with stage := .done }, none) := by
        unfold nextStep step
        rw [hstage, hresponse]
      rw [hstep, run_of_isFinal _ _ rfl, Finding.conclude_ok, ← houtcome]
      rfl
  | error error =>
      have hstep : session.nextStep now config =
          if error.isNotFound then ({ session.state with stage := .done }, none)
          else ({ session.state with stage := .failed (.updateStatusFailed error) }, none) := by
        unfold nextStep step
        rw [hstage, hresponse]
      rw [Finding.conclude_error]
      by_cases hgone : error.isNotFound = true
      · rw [hstep, if_pos hgone, if_pos hgone, run_of_isFinal _ _ rfl, ← houtcome]
        rfl
      · rw [hstep, if_neg hgone, if_neg hgone, run_of_isFinal _ _ rfl]
        rfl

/-- A step that reports a finding ends in the announcement of it. -/
theorem run_report {finding : Finding} {state : State}
    (hstep : session.nextStep now config =
      report session.scaler (finding.condition config now) (finding.outcome config) state) :
    session.run now config store world =
      announce now config store session.scaler finding world := by
  have hrequest : (session.nextStep now config).2 =
      some (.updateStatus (session.scaler.reporting (finding.condition config now))) := by
    rw [hstep]
    rfl
  rw [run_of_some store world hrequest, hstep]
  exact run_written store _ rfl rfl rfl

theorem run_patched {answer : Except ApiError Deployment}
    (hstage : session.state.stage = .awaiting .afterPatchDeployment)
    (hresponse : session.response = some (.patched answer)) :
    session.run now config store world =
      announce now config store session.scaler (.ofPatch answer) world := by
  have hstep : session.nextStep now config =
      report session.scaler ((Finding.ofPatch answer).condition config now)
        ((Finding.ofPatch answer).outcome config) session.state := by
    unfold nextStep step
    rw [hstage, hresponse]
    cases answer with
    | ok deployment => rfl
    | error error => rfl
  exact run_report store world hstep

/-- Once a Deployment is read, it is brought to what it should be. -/
theorem run_read {deployment : Deployment}
    (hstage : session.state.stage = .awaiting .afterGetDeployment)
    (hresponse : session.response = some (.deployment (.ok deployment))) :
    session.run now config store world =
      let found := bring config store session.scaler deployment world
      announce now config store session.scaler found.1 found.2 := by
  have hstep : session.nextStep now config =
      scale now config session.scaler deployment session.state := by
    unfold nextStep step
    rw [hstage, hresponse]
  unfold scale at hstep
  unfold bring
  cases howner : session.scaler.ownerReference? with
  | none =>
      rw [howner] at hstep
      exact run_report store world hstep
  | some owner =>
      rw [howner] at hstep
      dsimp only at hstep ⊢
      cases hdesired : desired session.scaler owner deployment with
      | error error =>
          rw [hdesired] at hstep
          exact run_report store world hstep
      | ok wanted =>
          rw [hdesired] at hstep
          rw [run_of_some store world (congrArg Prod.snd hstep), hstep,
            run_patched store _ rfl rfl]
          rfl

variable (now config) in
/-- A candidate that cannot be read is passed over. -/
theorem nextStep_unreadable {error : ApiError}
    (hstage : session.state.stage = .awaiting .afterGetDeployment)
    (hresponse : session.response = some (.deployment (.error error))) :
    session.nextStep now config =
      match session.state.candidates[session.state.candidateIndex + 1]? with
      | some candidate => askFor session.scaler candidate (session.state.passOver error)
      | none =>
          report session.scaler ((Finding.candidatesUnreadable error).condition config now)
            ((Finding.candidatesUnreadable error).outcome config)
            (session.state.passOver error) := by
  unfold nextStep step
  rw [hstage, hresponse]
  rfl

/-- The next candidate is the first one of those that are left after the present one. -/
theorem getElem?_of_drop {candidates others : List TypedReference} {index : Nat}
    {first : TypedReference} (h : candidates.drop index = first :: others) :
    candidates[index + 1]? = others.head? ∧ candidates.drop (index + 1) = others := by
  have hdrop : candidates.drop (index + 1) = others := by
    rw [← List.drop_drop, h]
    rfl
  refine ⟨?_, hdrop⟩
  rw [← hdrop, List.head?_drop]

/-- While candidates are asked for, only those that are left count, from the present one. -/
theorem run_asked {first : TypedReference} {others : List TypedReference}
    (hstage : session.state.stage = .awaiting .afterGetDeployment)
    (hleft : session.state.candidates.drop session.state.candidateIndex = first :: others)
    (hresponse : session.response =
      some (.deployment (store.getDeployment (candidateKey session.scaler first) world).1)) :
    session.run now config store (store.getDeployment (candidateKey session.scaler first) world).2 =
      let found := search config store session.scaler first others world
      announce now config store session.scaler found.1 found.2 := by
  induction others generalizing session first world with
  | nil =>
      rw [search_eq]
      dsimp only
      cases hanswer : (store.getDeployment (candidateKey session.scaler first) world).1 with
      | ok deployment =>
          rw [hanswer] at hresponse
          exact run_read store _ hstage hresponse
      | error error =>
          rw [hanswer] at hresponse
          have hstep := nextStep_unreadable now config hstage hresponse
          rw [(getElem?_of_drop hleft).1] at hstep
          exact run_report store _ hstep
  | cons next others ih =>
      rw [search_eq]
      dsimp only
      cases hanswer : (store.getDeployment (candidateKey session.scaler first) world).1 with
      | ok deployment =>
          rw [hanswer] at hresponse
          exact run_read store _ hstage hresponse
      | error error =>
          rw [hanswer] at hresponse
          obtain ⟨hnext, hdrop⟩ := getElem?_of_drop hleft
          have hstep := nextStep_unreadable now config hstage hresponse
          rw [hnext] at hstep
          rw [run_of_some store _ (congrArg Prod.snd hstep), hstep]
          exact ih _ rfl hdrop rfl

/-- Once the workload is fetched, it decides which candidates there are. -/
theorem run_fetched {answer : Except ApiError Workload}
    (hstage : session.state.stage = .awaiting .afterGetWorkload)
    (hresponse : session.response = some (.workload answer)) :
    session.run now config store world =
      let found := resolve config store session.scaler answer world
      announce now config store session.scaler found.1 found.2 := by
  unfold resolve
  cases answer with
  | error error =>
      have hstep : session.nextStep now config =
          report session.scaler ((Finding.workloadUnreadable error).condition config now)
            ((Finding.workloadUnreadable error).outcome config) session.state := by
        unfold nextStep step
        rw [hstage, hresponse]
        rfl
      exact run_report store world hstep
  | ok workload =>
      have hstep : session.nextStep now config =
          takeWorkload now config session.scaler workload session.state := by
        unfold nextStep step
        rw [hstage, hresponse]
      unfold takeWorkload at hstep
      dsimp only
      by_cases hidentity : isIntended session.scaler workload = true
      · rw [if_pos hidentity] at hstep ⊢
        cases hcandidates : candidatesOf config workload with
        | nil =>
            rw [hcandidates] at hstep
            exact run_report store world hstep
        | cons first others =>
            rw [hcandidates] at hstep
            rw [run_of_some store world (congrArg Prod.snd hstep), hstep]
            exact run_asked store world rfl rfl rfl
      · rw [if_neg hidentity] at hstep ⊢
        exact run_report store world hstep

end Session

/-- A session that starts at the beginning examines and announces, and does nothing else. -/
theorem run_eq (now : Time) (config : Config) (store : Store σ) (scaler : Scaler) (world : σ) :
    ({ scaler } : Session).run now config store world =
      let found := examine config store scaler world
      announce now config store scaler found.1 found.2 := by
  have hstep : ({ scaler } : Session).nextStep now config =
      ({ stage := .awaiting .afterGetWorkload }, some (.getWorkload (workloadKey scaler))) := rfl
  rw [Session.run_of_some store world (congrArg Prod.snd hstep), hstep]
  exact Session.run_fetched store _ rfl rfl

end ReplicaKeeper.Reconcile
