import ReplicaKeeper.Proofs.Reconcile.Provenance

/-!
# References with a uid

A reference with a uid is meant for one incarnation of an object.  A reconcile compares the uid of
the reference to the workload, and it never looks at the uids of the resources that the workload
reports.  `history_ignores_pins` says so: a Deployment that was read for a resource is patched
whenever the scaler can own it, and other uids among the resources lead to the same requests.

So the Deployment that is patched may be another incarnation than the one that the resource is
pinned to, `not_pinned_samplePinned`.
-/

set_option autoImplicit false

namespace ReplicaKeeper

/-! ## References without their uids -/

/-- The reference to whatever object has the name. -/
def TypedReference.unpinned (reference : TypedReference) : TypedReference :=
  { reference with uid := none }

/-- The workload with no uid in the references to its resources. -/
def Workload.unpinned (workload : Workload) : Workload :=
  { workload with
    status := workload.status.map fun status =>
      { status with resources := status.resources.map TypedReference.unpinned } }

/-- The response with no uid in the references to resources. -/
def Response.unpinned : Response → Response
  | .workload (.ok found) => .workload (.ok found.unpinned)
  | response => response

namespace Reconcile

/-- The state with no uid in its candidates. -/
def State.unpinned (state : State) : State :=
  { state with candidates := state.candidates.map TypedReference.unpinned }

/-- The input with no uid in the references to resources. -/
def Input.unpinned (input : Input) : Input :=
  { input with response := input.response.map Response.unpinned }

/-- The turn with no uid in the references to resources. -/
def Turn.unpinned (turn : Turn) : Turn :=
  ⟨turn.before.unpinned, turn.input.unpinned, turn.request, turn.after.unpinned⟩

/-- The reference is meant for the Deployment: it has no uid, or that of the Deployment. -/
def Pins (candidate : TypedReference) (deployment : Deployment) : Prop :=
  candidate.uid = none ∨ candidate.uid = deployment.metadata.uid

/-- A turn patches the Deployment that was read for a candidate. -/
structure PatchesFor (turn : Turn) (candidate : TypedReference) (deployment : Deployment) :
    Prop where
  sends : turn.Patches
  told : turn.input.response = some (.deployment (.ok deployment))
  asked : turn.before.candidates[turn.before.candidateIndex]? = some candidate

/-- What the uids of resources have to do with the requests of a reconcile: nothing. -/
structure IgnoresPins (config : Config) (scaler : Scaler) (inputs : List Input) : Prop where
  /-- A patch is for the Deployment in the answer to the question for a candidate, which is a
  resource of the identified workload. -/
  for_candidate : ∀ {i : Nat} {turn : Turn}, (history config scaler inputs)[i]? = some turn →
    turn.Patches → ∃ workload candidate deployment k asking,
      Identified scaler (history config scaler inputs) workload ∧
        candidate ∈ workload.managedResources ∧ PatchesFor turn candidate deployment ∧
        i = k + 1 ∧ (history config scaler inputs)[k]? = some asking ∧
        asking.request = some (.getDeployment (candidateKey scaler candidate))
  /-- A Deployment that was read is patched if and only if the scaler can own it. -/
  whenever_owned : ∀ {i : Nat} {turn : Turn} {deployment : Deployment},
    (history config scaler inputs)[i]? = some turn →
    turn.before.stage = .awaiting .afterGetDeployment →
    turn.input.response = some (.deployment (.ok deployment)) →
      (turn.Patches ↔ ∃ owner wanted,
        scaler.ownerReference? = some owner ∧ desired scaler owner deployment = .ok wanted)
  /-- Inputs that differ in no more than uids of resources lead to the same requests. -/
  requests : ∀ others : List Input, others.map Input.unpinned = inputs.map Input.unpinned →
    (history config scaler others).map Turn.request =
      (history config scaler inputs).map Turn.request

/-! ## A step without uids -/

section Steps

variable (now : Time) (config : Config) (scaler : Scaler) (state : State)

theorem candidatesOf_unpinned (workload : Workload) : candidatesOf config workload.unpinned =
    (candidatesOf config workload).map TypedReference.unpinned := by
  unfold candidatesOf
  have hresources : workload.unpinned.managedResources =
      workload.managedResources.map TypedReference.unpinned := by
    unfold Workload.managedResources Workload.unpinned
    cases workload.status <;> rfl
  rw [hresources, List.filter_map]
  rfl

theorem takeWorkload_unpinned (workload : Workload) :
    takeWorkload now config scaler workload.unpinned state.unpinned =
      ((takeWorkload now config scaler workload state).1.unpinned,
        (takeWorkload now config scaler workload state).2) := by
  unfold takeWorkload
  have hidentity : isIntended scaler workload.unpinned = isIntended scaler workload := rfl
  rw [hidentity, candidatesOf_unpinned]
  split
  · cases candidatesOf config workload with
    | nil => rfl
    | cons first others => rfl
  · rfl

theorem nextCandidate_unpinned (error : ApiError) :
    nextCandidate now config scaler error state.unpinned =
      ((nextCandidate now config scaler error state).1.unpinned,
        (nextCandidate now config scaler error state).2) := by
  have hnext : state.unpinned.candidates[state.unpinned.candidateIndex + 1]? =
      (state.candidates[state.candidateIndex + 1]?).map TypedReference.unpinned :=
    List.getElem?_map
  unfold nextCandidate
  dsimp only
  rw [hnext]
  cases state.candidates[state.candidateIndex + 1]? with
  | none => rfl
  | some candidate => rfl

theorem scale_unpinned (deployment : Deployment) :
    scale now config scaler deployment state.unpinned =
      ((scale now config scaler deployment state).1.unpinned,
        (scale now config scaler deployment state).2) := by
  unfold scale
  cases scaler.ownerReference? with
  | none => rfl
  | some owner =>
      dsimp only
      cases desired scaler owner deployment with
      | error error => rfl
      | ok wanted => rfl

/-- A step makes the same request without the uids, and it leaves the same state but for them. -/
theorem step_unpinned (response : Option Response) :
    step now config scaler (response.map Response.unpinned) state.unpinned =
      ((step now config scaler response state).1.unpinned,
        (step now config scaler response state).2) := by
  obtain ⟨stage, candidates, index, lastError, outcome⟩ := state
  -- References are touched by a workload that was read and by a candidate that was not.
  cases stage with
  | init | done | failed error => rfl
  | awaiting phase =>
      cases response with
      | none => cases phase <;> rfl
      | some response =>
          cases phase with
          | afterGetWorkload =>
              cases response with
              | workload answer =>
                  cases answer with
                  | ok workload => exact takeWorkload_unpinned now config scaler _ workload
                  | error error => rfl
              | _ => rfl
          | afterGetDeployment =>
              cases response with
              | deployment answer =>
                  cases answer with
                  | ok deployment => exact scale_unpinned now config scaler _ deployment
                  | error error => exact nextCandidate_unpinned now config scaler _ error
              | workload answer => cases answer <;> rfl
              | _ => rfl
          | afterPatchDeployment =>
              cases response with
              | workload answer | patched answer => cases answer <;> rfl
              | _ => rfl
          | afterUpdateStatus =>
              cases response with
              | statusUpdated answer =>
                  cases answer with
                  | ok written => rfl
                  | error error =>
                      simp only [step, Option.map_some, Response.unpinned, State.unpinned]
                      split <;> rfl
              | workload answer => cases answer <;> rfl
              | _ => rfl

end Steps

/-! ## Histories -/

section Histories

variable (config : Config) (scaler : Scaler)

theorem takeTurn_unpinned (state : State) (input : Input) :
    takeTurn config scaler state.unpinned input.unpinned =
      (takeTurn config scaler state input).unpinned := by
  have hstep := step_unpinned input.now config scaler state input.response
  unfold takeTurn Turn.unpinned
  change Turn.mk state.unpinned input.unpinned
    (step input.now config scaler (input.response.map Response.unpinned) state.unpinned).2
    (step input.now config scaler (input.response.map Response.unpinned) state.unpinned).1 = _
  rw [hstep]

/-- Without the uids of the resources a history is the same, but for these uids. -/
theorem turnsFrom_unpinned (state : State) (inputs : List Input) :
    turnsFrom config scaler state.unpinned (inputs.map Input.unpinned) =
      (turnsFrom config scaler state inputs).map Turn.unpinned := by
  induction inputs generalizing state with
  | nil => rfl
  | cons input inputs ih =>
      rw [List.map_cons, turnsFrom, turnsFrom, takeTurn_unpinned, List.map_cons]
      exact congrArg (List.cons _) (ih (takeTurn config scaler state input).after)

theorem requests_unpinned (inputs : List Input) :
    (history config scaler (inputs.map Input.unpinned)).map Turn.request =
      (history config scaler inputs).map Turn.request := by
  have hturns : history config scaler (inputs.map Input.unpinned) =
      (history config scaler inputs).map Turn.unpinned := turnsFrom_unpinned config scaler {} inputs
  rw [hturns, List.map_map]
  rfl

variable {config scaler}

/-- A patch goes back to the candidate that was asked for in the turn before. -/
theorem exists_patchesFor {inputs : List Input} {i : Nat} {turn : Turn}
    (hturn : (history config scaler inputs)[i]? = some turn) (hpatches : turn.Patches) :
    ∃ workload candidate deployment k asking,
      Identified scaler (history config scaler inputs) workload ∧
        candidate ∈ workload.managedResources ∧ PatchesFor turn candidate deployment ∧
        i = k + 1 ∧ (history config scaler inputs)[k]? = some asking ∧
        asking.request = some (.getDeployment (candidateKey scaler candidate)) := by
  obtain ⟨hgrounded, hmove⟩ := grounded_at hturn
  obtain ⟨key, patch, hrequest⟩ := hpatches
  obtain ⟨hstage, -, deployment, owner, wanted, hresponse, -⟩ :=
    (hmove.sending hrequest).of_patchDeployment
  obtain ⟨workload, hidentified, hcandidates, asking, candidate, hlast, hcandidate, hasked⟩ :=
    hgrounded.deployment hstage
  obtain ⟨k, hk, hasking⟩ := getElem?_of_getLast?_take hturn hlast
  have hlisted : candidate ∈ candidatesOf config workload :=
    hcandidates ▸ List.mem_of_getElem? hcandidate
  obtain ⟨hmem, -⟩ := (mem_candidatesOf_iff config workload candidate).1 hlisted
  exact ⟨workload, candidate, deployment, k, asking, identified_of_take hidentified, hmem,
    ⟨⟨key, patch, hrequest⟩, hresponse, hcandidate⟩, hk, hasking, hasked⟩

/-- After a Deployment was read, the owner alone decides on a patch. -/
theorem patches_iff {turn : Turn} (hmove : turn.IsMove config scaler)
    (hstage : turn.before.stage = .awaiting .afterGetDeployment) {deployment : Deployment}
    (hresponse : turn.input.response = some (.deployment (.ok deployment))) :
    turn.Patches ↔ ∃ owner wanted,
      scaler.ownerReference? = some owner ∧ desired scaler owner deployment = .ok wanted := by
  constructor
  · rintro ⟨key, patch, hrequest⟩
    obtain ⟨-, -, given, owner, wanted, hgiven, howner, hwanted, -⟩ :=
      (hmove.sending hrequest).of_patchDeployment
    cases hresponse.symm.trans hgiven
    exact ⟨owner, wanted, howner, hwanted⟩
  · rintro ⟨owner, wanted, howner, hwanted⟩
    have htold := hmove.told hresponse
    generalize hrequest : turn.request = request at htold
    generalize turn.after = after at htold
    cases htold with
    | patch => exact ⟨_, _, hrequest⟩
    | start hinit | rest hinit => simp [hstage, Stage.isFinal] at hinit
    | mismatch hphase hother =>
        cases hstage.symm.trans hphase
        cases hother
    | report hphase finding hsettles =>
        cases hstage.symm.trans hphase
        cases hsettles with
        | ownerIncomplete hnone => cases howner.symm.trans hnone
        | ownerRefused hgiven hrefused =>
            cases howner.symm.trans hgiven
            cases hwanted.symm.trans hrefused

end Histories

/-- In every history the uids of resources play no part in what is asked for and patched. -/
theorem history_ignores_pins (config : Config) (scaler : Scaler) (inputs : List Input) :
    IgnoresPins config scaler inputs where
  for_candidate := exists_patchesFor
  whenever_owned hturn hstage hresponse := patches_iff (history_getElem? hturn).2.2 hstage hresponse
  requests others hothers := by
    rw [← requests_unpinned config scaler others, hothers, requests_unpinned]

/-- A scaler that points to a workload. -/
def samplePinning : Scaler :=
  { metadata := { name := some "web", ns := some "shop", uid := some "scaler" }
    spec := ⟨3, { apiVersion := none, kind := none, name := "web", uid := some "workload" }⟩
    status := none }

/-- The workload reports a Deployment by its uid, and the Deployment has been created anew since. -/
def samplePinned : List Input := [
  ⟨default, none⟩,
  ⟨default, some (.workload (.ok
    { metadata := { name := some "web", ns := some "shop", uid := some "workload" }
      spec := ⟨none, []⟩
      status := some ⟨[], [⟨none, some "Deployment", "front", some "old"⟩]⟩ }))⟩,
  ⟨default, some (.deployment (.ok
    { metadata := { name := some "front", ns := some "shop", uid := some "new" } }))⟩]

/-- It is patched all the same. -/
theorem not_pinned_samplePinned :
    ¬ ∀ (config : Config) (scaler : Scaler) (inputs : List Input), ∀ turn candidate deployment,
      turn ∈ history config scaler inputs → PatchesFor turn candidate deployment →
        Pins candidate deployment := by
  intro hpins
  have hpinned := hpins {} samplePinning samplePinned _
    ⟨none, some "Deployment", "front", some "old"⟩
    { metadata := { name := some "front", ns := some "shop", uid := some "new" } }
    (List.mem_of_getElem? (i := 2) rfl) ⟨⟨_, _, rfl⟩, rfl, rfl⟩
  rcases hpinned with hnone | hsame
  · cases hnone
  · exact absurd hsame (by decide)

end Reconcile

end ReplicaKeeper
