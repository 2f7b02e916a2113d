import ReplicaKeeper.Proofs.Reconcile.Finding

/-!
# The moves of a reconcile

`Move` lists what one step of a reconcile can do: under which condition, with which request and to
which state.  Every step is one of these moves, `step_move`, so that what steps preserve is proved
by cases on the moves and without opening `step` again.
-/

set_option autoImplicit false

namespace ReplicaKeeper.Reconcile

/-- Whether a response is one to the request that a phase waits for. -/
def Phase.isAnsweredBy : Phase → Option Response → Bool
  | .afterGetWorkload, some (.workload _) => true
  | .afterGetDeployment, some (.deployment _) => true
  | .afterPatchDeployment, some (.patched _) => true
  | .afterUpdateStatus, some (.statusUpdated _) => true
  | _, _ => false

/-- The key of the workload that a scaler points to. -/
def workloadKey (scaler : Scaler) : Key := ⟨namespaceOf scaler, scaler.spec.workloadRef.name⟩

/-- The key under which a reconcile asks for a candidate. -/
def candidateKey (scaler : Scaler) (candidate : TypedReference) : Key :=
  ⟨namespaceOf scaler, candidate.name⟩

/-- The key under which a reconcile patches a Deployment that it got. -/
def targetKey (scaler : Scaler) (deployment : Deployment) : Key :=
  ⟨namespaceOf scaler, deployment.metadata.name.getD ""⟩

/-- The state after the present candidate could not be read. -/
def State.passOver (error : ApiError) (state : State) : State :=
  { state with candidateIndex := state.candidateIndex + 1, lastCandidateError := some error }

/-- The identity guard: the scaler points to one incarnation, and the workload is that one. -/
theorem isIntended_iff (scaler : Scaler) (workload : Workload) :
    isIntended scaler workload = true ↔
      ∃ uid, scaler.spec.workloadRef.uid = some uid ∧ workload.metadata.uid = some uid := by
  unfold isIntended
  cases scaler.spec.workloadRef.uid with
  | none => simp
  | some uid => simp [eq_comm]

/-- Candidates are the resources of the kind that is scaled. -/
theorem mem_candidatesOf_iff (config : Config) (workload : Workload) (candidate : TypedReference) :
    candidate ∈ candidatesOf config workload ↔
      candidate ∈ workload.managedResources ∧ candidate.kind = some config.deploymentKind := by
  simp [candidatesOf]

theorem candidatesOf_eq_nil_iff (config : Config) (workload : Workload) :
    candidatesOf config workload = [] ↔
      ∀ resource ∈ workload.managedResources, resource.kind ≠ some config.deploymentKind := by
  simp [candidatesOf, List.filter_eq_nil_iff]

/-- The findings that a response brings about at a phase, when no candidate is passed over. -/
inductive Settles (config : Config) (scaler : Scaler) : Phase → Response → Finding → Prop
  | workloadUnreadable (error : ApiError) :
      Settles config scaler .afterGetWorkload (.workload (.error error)) (.workloadUnreadable error)
  | otherWorkload {workload : Workload} (hidentity : isIntended scaler workload = false) :
      Settles config scaler .afterGetWorkload (.workload (.ok workload)) .otherWorkload
  | noCandidate {workload : Workload} (hidentity : isIntended scaler workload = true)
      (hcandidates : candidatesOf config workload = []) :
      Settles config scaler .afterGetWorkload (.workload (.ok workload)) .noCandidate
  | ownerIncomplete {deployment : Deployment} (howner : scaler.ownerReference? = none) :
      Settles config scaler .afterGetDeployment (.deployment (.ok deployment)) .ownerIncomplete
  | ownerRefused {deployment : Deployment} {owner : OwnerReference} {error : OwnershipError}
      (howner : scaler.ownerReference? = some owner)
      (hdesired : desired scaler owner deployment = .error error) :
      Settles config scaler .afterGetDeployment (.deployment (.ok deployment)) (.ownerRefused error)
  | patchRefused (error : ApiError) :
      Settles config scaler .afterPatchDeployment (.patched (.error error)) (.patchRefused error)
  | scaled (deployment : Deployment) :
      Settles config scaler .afterPatchDeployment (.patched (.ok deployment)) .scaled

/-- What one step does: from a state, after a response, with a request, to a state. -/
inductive Move (now : Time) (config : Config) (scaler : Scaler) :
    State → Option Response → Option Request → State → Prop
  /-- The workload is asked for. -/
  | start {state : State} {response : Option Response} (hstage : state.stage = .init) :
      Move now config scaler state response (some (.getWorkload (workloadKey scaler)))
        { state with stage := .awaiting .afterGetWorkload }
  /-- The workload is the right one, and its first candidate is asked for. -/
  | askFirst {state : State} {workload : Workload} {first : TypedReference}
      {others : List TypedReference} (hstage : state.stage = .awaiting .afterGetWorkload)
      (hidentity : isIntended scaler workload = true)
      (hcandidates : candidatesOf config workload = first :: others) :
      Move now config scaler state (some (.workload (.ok workload)))
        (some (.getDeployment (candidateKey scaler first)))
        { state with
          stage := .awaiting .afterGetDeployment
          candidates := first :: others
          candidateIndex := 0 }
  /-- A candidate could not be read, and the next one is asked for. -/
  | askNext {state : State} {error : ApiError} {candidate : TypedReference}
      (hstage : state.stage = .awaiting .afterGetDeployment)
      (hcandidate : state.candidates[state.candidateIndex + 1]? = some candidate) :
      Move now config scaler state (some (.deployment (.error error)))
        (some (.getDeployment (candidateKey scaler candidate)))
        { state.passOver error with stage := .awaiting .afterGetDeployment }
  /-- The last candidate could not be read. -/
  | giveUp {state : State} (hstage : state.stage = .awaiting .afterGetDeployment) (error : ApiError)
      (hcandidate : state.candidates[state.candidateIndex + 1]? = none) :
      Move now config scaler state (some (.deployment (.error error)))
        (some (.updateStatus
          (scaler.reporting ((Finding.candidatesUnreadable error).condition config now))))
        { state.passOver error with
          stage := .awaiting .afterUpdateStatus
          outcome := (Finding.candidatesUnreadable error).outcome config }
  /-- A Deployment was read, and it is patched. -/
  | patch {state : State} {deployment wanted : Deployment} {owner : OwnerReference}
      (hstage : state.stage = .awaiting .afterGetDeployment)
      (howner : scaler.ownerReference? = some owner)
      (hdesired : desired scaler owner deployment = .ok wanted) :
      Move now config scaler state (some (.deployment (.ok deployment)))
        (some (.patchDeployment (targetKey scaler deployment) (patchTo config deployment wanted)))
        { state with stage := .awaiting .afterPatchDeployment }
  /-- A finding is reported. -/
  | report {state : State} {phase : Phase} {response : Response}
      (hstage : state.stage = .awaiting phase) (finding : Finding)
      (hsettles : Settles config scaler phase response finding) :
      Move now config scaler state (some response)
        (some (.updateStatus (scaler.reporting (finding.condition config now))))
        { state with
          stage := .awaiting .afterUpdateStatus
          outcome := finding.outcome config }
  /-- The report is written, or there is no scaler left to report on. -/
  | finish {state : State} {answer : Except ApiError Scaler}
      (hstage : state.stage = .awaiting .afterUpdateStatus)
      (hanswer : ∀ error, answer = .error error → error = .notFound) :
      Move now config scaler state (some (.statusUpdated answer)) none { state with stage := .done }
  /-- The report could not be written. -/
  | fail {state : State} {error : ApiError}
      (hstage : state.stage = .awaiting .afterUpdateStatus) (herror : error ≠ .notFound) :
      Move now config scaler state (some (.statusUpdated (.error error))) none
        { state with stage := .failed (.updateStatusFailed error) }
  /-- The response is missing, or it is one to another request. -/
  | mismatch {state : State} {phase : Phase} {response : Option Response}
      (hstage : state.stage = .awaiting phase) (hresponse : phase.isAnsweredBy response = false) :
      Move now config scaler state response none
        { state with stage := .failed (.unexpectedResponse phase) }
  /-- The reconcile has ended. -/
  | rest {state : State} {response : Option Response} (hfinal : state.stage.isFinal = true) :
      Move now config scaler state response none state

/-! ## Every step is a move -/

section Steps

variable (now : Time) (config : Config) (scaler : Scaler)

theorem isNotFound_iff (error : ApiError) : error.isNotFound = true ↔ error = .notFound := by
  simp [ApiError.isNotFound]

theorem takeWorkload_move (workload : Workload) (state : State)
    (hstage : state.stage = .awaiting .afterGetWorkload) :
    let made := takeWorkload now config scaler workload state
    Move now config scaler state (some (.workload (.ok workload))) made.2 made.1 := by
  unfold takeWorkload
  split
  · next hidentity =>
    split
    · next hcandidates => exact .report hstage _ (.noCandidate hidentity hcandidates)
    · next hcandidates => exact .askFirst hstage hidentity hcandidates
  · next hidentity =>
    exact .report hstage _ (.otherWorkload (Bool.eq_false_iff.2 hidentity))

theorem nextCandidate_move (error : ApiError) (state : State)
    (hstage : state.stage = .awaiting .afterGetDeployment) :
    let made := nextCandidate now config scaler error state
    Move now config scaler state (some (.deployment (.error error))) made.2 made.1 := by
  unfold nextCandidate
  dsimp only
  split
  · next hcandidate => exact .askNext hstage hcandidate
  · next hcandidate => exact .giveUp hstage _ hcandidate

theorem scale_move (deployment : Deployment) (state : State)
    (hstage : state.stage = .awaiting .afterGetDeployment) :
    let made := scale now config scaler deployment state
    Move now config scaler state (some (.deployment (.ok deployment))) made.2 made.1 := by
  unfold scale
  split
  · next howner => exact .report hstage _ (.ownerIncomplete howner)
  · next howner =>
    split
    · next hdesired => exact .report hstage _ (.ownerRefused howner hdesired)
    · next hdesired => exact .patch hstage howner hdesired

/-- The response that a phase waits for carries the result of its request. -/
theorem exists_of_isAnsweredBy {phase : Phase} {response : Response}
    (h : phase.isAnsweredBy (some response) = true) :
    match phase with
    | .afterGetWorkload => ∃ result, response = .workload result
    | .afterGetDeployment => ∃ result, response = .deployment result
    | .afterPatchDeployment => ∃ result, response = .patched result
    | .afterUpdateStatus => ∃ result, response = .statusUpdated result := by
  cases phase <;> cases response <;> first | exact ⟨_, rfl⟩ | cases h

/-- A response is one to another request when it carries neither result of the present one. -/
theorem isAnsweredBy_eq_false {α : Type} (wrap : Except ApiError α → Response) {phase : Phase}
    (hphase : ∀ response, phase.isAnsweredBy (some response) = true →
      ∃ result, response = wrap result)
    {response : Option Response} (hok : ∀ x, response = some (wrap (.ok x)) → False)
    (herror : ∀ error, response = some (wrap (.error error)) → False) :
    phase.isAnsweredBy response = false := by
  rw [Bool.eq_false_iff]
  intro hanswered
  cases response with
  | none => cases phase <;> cases hanswered
  | some response =>
      obtain ⟨result, hresult⟩ := hphase response hanswered
      cases result with
      | ok x => exact hok x (congrArg some hresult)
      | error error => exact herror error (congrArg some hresult)

/-- Every step is one of the moves. -/
theorem step_move (response : Option Response) (state : State) :
    let made := step now config scaler response state
    Move now config scaler state response made.2 made.1 := by
  unfold step
  split
  · next hstage => exact .start hstage
  · next hstage =>
    split
    · exact takeWorkload_move now config scaler _ state hstage
    · exact .report hstage _ (.workloadUnreadable _)
    · next hok herror =>
      exact .mismatch hstage
        (isAnsweredBy_eq_false Response.workload (fun _ => exists_of_isAnsweredBy) hok herror)
  · next hstage =>
    split
    · exact scale_move now config scaler _ state hstage
    · exact nextCandidate_move now config scaler _ state hstage
    · next hok herror =>
      exact .mismatch hstage
        (isAnsweredBy_eq_false Response.deployment (fun _ => exists_of_isAnsweredBy) hok herror)
  · next hstage =>
    split
    · exact .report hstage _ (.scaled _)
    · exact .report hstage _ (.patchRefused _)
    · next hok herror =>
      exact .mismatch hstage
        (isAnsweredBy_eq_false Response.patched (fun _ => exists_of_isAnsweredBy) hok herror)
  · next hstage =>
    split
    · exact .finish hstage (by simp)
    · next error =>
      by_cases hgone : error.isNotFound = true
      · rw [if_pos hgone]
        refine .finish hstage fun given hgiven => ?_
        cases hgiven
        exact (isNotFound_iff _).1 hgone
      · rw [if_neg hgone]
        exact .fail hstage fun herror => hgone ((isNotFound_iff _).2 herror)
    · next hok herror =>
      exact .mismatch hstage
        (isAnsweredBy_eq_false Response.statusUpdated (fun _ => exists_of_isAnsweredBy) hok herror)
  · next hstage => exact .rest (by rw [hstage]; rfl)
  · next hstage => exact .rest (by rw [hstage]; rfl)

end Steps

/-! ## What a request says about its move -/

section Requests

variable {now : Time} {config : Config} {scaler : Scaler} {state next : State}
  {response : Option Response} {key : Key}

theorem Move.of_getWorkload
    (h : Move now config scaler state response (some (.getWorkload key)) next) :
    state.stage = .init ∧ key = workloadKey scaler := by
  cases h with
  | start hstage => exact ⟨hstage, rfl⟩

theorem Move.of_getDeployment
    (h : Move now config scaler state response (some (.getDeployment key)) next) :
    next.stage = .awaiting .afterGetDeployment := by
  cases h with
  | askFirst | askNext => rfl

/-- Deployments are asked for in the namespace of the scaler. -/
theorem Move.ns_of_getDeployment
    (h : Move now config scaler state response (some (.getDeployment key)) next) :
    key.ns = namespaceOf scaler := by
  cases h with
  | askFirst | askNext => rfl

/-- A patch is computed from the Deployment in the response. -/
theorem Move.of_patchDeployment {patch : Json}
    (h : Move now config scaler state response (some (.patchDeployment key patch)) next) :
    state.stage = .awaiting .afterGetDeployment ∧ next.stage = .awaiting .afterPatchDeployment ∧
      ∃ deployment owner wanted,
        response = some (.deployment (.ok deployment)) ∧ scaler.ownerReference? = some owner ∧
          desired scaler owner deployment = .ok wanted ∧
          patch = patchTo config deployment wanted ∧ key = targetKey scaler deployment := by
  cases h with
  | patch hstage howner hdesired =>
      exact ⟨hstage, rfl, _, _, _, rfl, howner, hdesired, rfl, rfl⟩

/-- A status write reports a finding, which is success if and only if a patch was just confirmed. -/
theorem Move.of_updateStatus {written : Scaler}
    (h : Move now config scaler state response (some (.updateStatus written)) next) :
    ∃ finding : Finding, written = scaler.reporting (finding.condition config now) ∧
      2 ≤ state.stage.rank ∧ next.stage = .awaiting .afterUpdateStatus ∧
      next.outcome = finding.outcome config ∧
      (finding = .scaled ↔ state.stage = .awaiting .afterPatchDeployment ∧
        ∃ deployment, response = some (.patched (.ok deployment))) := by
  cases h with
  | giveUp hstage error hcandidate =>
      exact ⟨.candidatesUnreadable error, rfl, by simp [hstage, Stage.rank], rfl, rfl,
        by simp [hstage]⟩
  | report hstage finding hsettles =>
      refine ⟨finding, rfl, ?_, rfl, rfl, ?_⟩
      · rw [hstage]
        cases hsettles <;> simp [Stage.rank]
      · rw [hstage]
        cases hsettles <;> simp

end Requests

/-! ## What the stages say about a move -/

section Stages

variable {now : Time} {config : Config} {scaler : Scaler} {state next : State}
  {response : Option Response} {request : Option Request}

/-- A move never leads away from the end. -/
theorem Move.rank_le (h : Move now config scaler state response request next) :
    next.stage.rank ≤ state.stage.rank := by
  cases h with
  | report hstage finding hsettles =>
      rw [hstage]
      cases hsettles <;> simp [Stage.rank]
  | mismatch hstage hresponse => simp [Stage.rank]
  | rest hfinal => exact Nat.le_refl _
  | _ => simp [Stage.rank, *]

/-- Only the start leads to the phase that waits for the workload. -/
theorem Move.init_of_stage (h : Move now config scaler state response request next)
    (hstage : next.stage = .awaiting .afterGetWorkload) : state.stage = .init := by
  cases h with
  | start hinit => exact hinit
  | rest hfinal => simp [hstage, Stage.isFinal] at hfinal
  | _ => simp at hstage

/-- Only a patch leads to the phase that waits for its answer. -/
theorem Move.patch_of_stage (h : Move now config scaler state response request next)
    (hstage : next.stage = .awaiting .afterPatchDeployment) :
    ∃ key patch, request = some (.patchDeployment key patch) := by
  cases h with
  | patch => exact ⟨_, _, rfl⟩
  | rest hfinal => simp [hstage, Stage.isFinal] at hfinal
  | _ => simp at hstage

/-- Only a status write leads to the phase that waits for its answer, and only that to `done`. -/
theorem Move.report_of_stage (h : Move now config scaler state response request next)
    (hstage : next.stage = .awaiting .afterUpdateStatus ∨ next.stage = .done) :
    (∃ written, request = some (.updateStatus written)) ∨
      state.stage = .awaiting .afterUpdateStatus ∨ state.stage = .done := by
  cases h with
  | giveUp | report => exact .inl ⟨_, rfl⟩
  | finish hwriting => exact .inr (.inl hwriting)
  | rest => exact .inr hstage
  | _ => simp at hstage

/-- A confirmed patch is reported at once. -/
theorem Move.report_of_patched {deployment : Deployment}
    (h : Move now config scaler state (some (.patched (.ok deployment))) request next)
    (hstage : state.stage = .awaiting .afterPatchDeployment) :
    ∃ written, request = some (.updateStatus written) := by
  cases h with
  | report _ finding hsettles => exact ⟨_, rfl⟩
  | mismatch hphase hresponse =>
      rw [hstage] at hphase
      cases hphase
      simp [Phase.isAnsweredBy] at hresponse
  | start hinit => simp [hstage] at hinit
  | rest hfinal => simp [hstage, Stage.isFinal] at hfinal

/-- After the status write nothing is sent, and the outcome stays. -/
theorem Move.quiet_of_rank_le (h : Move now config scaler state response request next)
    (hrank : state.stage.rank ≤ 1) : request = none ∧ next.outcome = state.outcome := by
  cases h with
  | report hstage finding hsettles =>
      rw [hstage] at hrank
      cases hsettles <;> simp [Stage.rank] at hrank
  | finish | fail | mismatch | rest => exact ⟨rfl, rfl⟩
  | _ hstage => simp [hstage, Stage.rank] at hrank

/-- A move without a request leads to the end, and touches no candidate. -/
theorem Move.of_none (h : Move now config scaler state response none next) :
    next.stage.isFinal = true ∧ next.candidates = state.candidates ∧
      next.candidateIndex = state.candidateIndex := by
  cases h with
  | finish | fail | mismatch => exact ⟨rfl, rfl, rfl⟩
  | rest hfinal => exact ⟨hfinal, rfl, rfl⟩

/-- A move with a request leads to the phase that waits for its answer, which every store gives. -/
theorem Move.of_some {request : Request}
    (h : Move now config scaler state response (some request) next) :
    ∃ phase, next.stage = .awaiting phase ∧ ∀ {σ : Type} (store : Store σ) (world : σ),
      phase.isAnsweredBy (some (store.send request world).1) = true := by
  cases h with
  | start => exact ⟨.afterGetWorkload, rfl, fun _ _ => rfl⟩
  | askFirst | askNext => exact ⟨.afterGetDeployment, rfl, fun _ _ => rfl⟩
  | patch => exact ⟨.afterPatchDeployment, rfl, fun _ _ => rfl⟩
  | giveUp | report => exact ⟨.afterUpdateStatus, rfl, fun _ _ => rfl⟩

/-- A reconcile fails for an unexpected response only at one. -/
theorem Move.of_unexpectedResponse {phase : Phase}
    (h : Move now config scaler state response request next)
    (hstage : next.stage = .failed (.unexpectedResponse phase)) :
    state.stage = .failed (.unexpectedResponse phase) ∨
      state.stage = .awaiting phase ∧ phase.isAnsweredBy response = false := by
  cases h with
  | mismatch hbefore hresponse =>
      cases hstage
      exact .inr ⟨hbefore, hresponse⟩
  | rest => exact .inl hstage
  | _ => simp at hstage

/-- At the end nothing moves. -/
theorem Move.rest_of_isFinal (h : Move now config scaler state response request next)
    (hfinal : state.stage.isFinal = true) : request = none ∧ next = state := by
  cases h with
  | rest => exact ⟨rfl, rfl⟩
  | _ hstage => simp [hstage, Stage.isFinal] at hfinal

end Stages

end ReplicaKeeper.Reconcile
