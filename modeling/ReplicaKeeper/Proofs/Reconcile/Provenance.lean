import ReplicaKeeper.Proofs.Reconcile.History

/-!
# Where requests come from

The identity of the workload is checked in one step, and Deployments are asked for and patched in
later ones.  Still nothing is asked of a Deployment unless the workload that was read is the one
that the scaler points to; every Deployment that is asked for is one of its resources, and every
patch is for the Deployment that was just read.  `history_provenance` is the main statement, for
every history.
-/

set_option autoImplicit false

namespace ReplicaKeeper.Reconcile

/-- The answer to the question for the workload was a workload with the uid that the scaler points
to.  The question is asked in the first turn, and the answer is fed to the second one. -/
def Identified (scaler : Scaler) (turns : List Turn) (workload : Workload) : Prop :=
  ∃ asking told uid,
    turns[0]? = some asking ∧ asking.request = some (.getWorkload (workloadKey scaler)) ∧
      turns[1]? = some told ∧ told.input.response = some (.workload (.ok workload)) ∧
      scaler.spec.workloadRef.uid = some uid ∧ workload.metadata.uid = some uid

/-- Where the requests of a list of turns come from. -/
structure Provenance (config : Config) (scaler : Scaler) (turns : List Turn) : Prop where
  /-- The workload is asked for once, in the first turn. -/
  workload_first : ∀ {i : Nat} {turn : Turn} {key : Key}, turns[i]? = some turn →
    turn.request = some (.getWorkload key) → i = 0 ∧ key = workloadKey scaler
  /-- A Deployment that is asked for is a resource of the identified workload, of the kind that is
  scaled, in the namespace of the scaler. -/
  deployment_listed : ∀ {i : Nat} {turn : Turn} {key : Key}, turns[i]? = some turn →
    turn.request = some (.getDeployment key) →
    ∃ workload, Identified scaler turns workload ∧
      ∃ resource ∈ workload.managedResources,
        resource.kind = some config.deploymentKind ∧ key = ⟨namespaceOf scaler, resource.name⟩
  /-- A patch is computed from the Deployment in the answer to the request right before it, and sent
  to that Deployment. -/
  patch_read : ∀ {i : Nat} {turn : Turn} {key : Key} {patch : Json}, turns[i]? = some turn →
    turn.request = some (.patchDeployment key patch) →
    (∃ workload, Identified scaler turns workload) ∧
      ∃ k asking asked deployment owner wanted,
        i = k + 1 ∧ turns[k]? = some asking ∧ asking.request = some (.getDeployment asked) ∧
          turn.input.response = some (.deployment (.ok deployment)) ∧
          scaler.ownerReference? = some owner ∧ desired scaler owner deployment = .ok wanted ∧
          patch = patchTo config deployment wanted ∧
          key = ⟨namespaceOf scaler, deployment.metadata.name.getD ""⟩

/-! ## What a state owes to the turns before it -/

/-- Where the candidates of a state come from, and what the last turn asked for. -/
structure Grounded (config : Config) (scaler : Scaler) (turns : List Turn) (state : State) :
    Prop where
  start : state.stage = .init → turns = []
  workload : state.stage = .awaiting .afterGetWorkload →
    ∃ asking, turns = [asking] ∧ asking.request = some (.getWorkload (workloadKey scaler))
  deployment : state.stage = .awaiting .afterGetDeployment →
    ∃ workload, Identified scaler turns workload ∧
      state.candidates = candidatesOf config workload ∧
      ∃ asking candidate, turns.getLast? = some asking ∧
        state.candidates[state.candidateIndex]? = some candidate ∧
        asking.request = some (.getDeployment (candidateKey scaler candidate))

/-- What was identified stays so. -/
theorem Identified.append {scaler : Scaler} {turns : List Turn} {workload : Workload}
    (h : Identified scaler turns workload) (more : List Turn) :
    Identified scaler (turns ++ more) workload := by
  obtain ⟨asking, told, uid, hasking, hrequest, htold, hresponse, hwanted, hfound⟩ := h
  have hzero : 0 < turns.length := (List.getElem?_eq_some_iff.1 hasking).1
  have hone : 1 < turns.length := (List.getElem?_eq_some_iff.1 htold).1
  refine ⟨asking, told, uid, ?_, hrequest, ?_, hresponse, hwanted, hfound⟩
  · rw [List.getElem?_append_left hzero, hasking]
  · rw [List.getElem?_append_left hone, htold]

theorem Grounded.nil (config : Config) (scaler : Scaler) : Grounded config scaler [] {} where
  start := by simp
  workload := by simp
  deployment := by simp

section Turns

variable {config : Config} {scaler : Scaler} {turns : List Turn} {turn : Turn}

/-- A turn that takes the first candidate identifies the workload that it was told. -/
theorem identified_of_askFirst {workload : Workload}
    (hgrounded : Grounded config scaler turns turn.before)
    (hstage : turn.before.stage = .awaiting .afterGetWorkload)
    (hresponse : turn.input.response = some (.workload (.ok workload)))
    (hidentity : isIntended scaler workload = true) :
    Identified scaler (turns ++ [turn]) workload := by
  obtain ⟨asking, rfl, hrequest⟩ := hgrounded.workload hstage
  obtain ⟨uid, hwanted, hfound⟩ := (isIntended_iff scaler workload).1 hidentity
  exact ⟨asking, turn, uid, rfl, hrequest, rfl, hresponse, hwanted, hfound⟩

/-- One more turn keeps the ground. -/
theorem Grounded.next (hgrounded : Grounded config scaler turns turn.before)
    (hmove : turn.IsMove config scaler) : Grounded config scaler (turns ++ [turn]) turn.after := by
  obtain ⟨before, ⟨now, response⟩, request, after⟩ := turn
  unfold Turn.IsMove at hmove
  dsimp only at hmove hgrounded ⊢
  cases hmove with
  | start hstage =>
      rw [hgrounded.start hstage]
      exact ⟨by simp, fun _ => ⟨_, rfl, rfl⟩, by simp⟩
  | @askFirst workload first others hstage hidentity hcandidates =>
      refine ⟨by simp, by simp, fun _ => ⟨workload, ?_, hcandidates.symm, _, first,
        List.getLast?_concat, rfl, rfl⟩⟩
      exact identified_of_askFirst hgrounded hstage rfl hidentity
  | @askNext error candidate hstage hcandidate =>
      obtain ⟨workload, hidentified, hcandidates, -⟩ := hgrounded.deployment hstage
      exact ⟨by simp, by simp, fun _ => ⟨workload, hidentified.append _, hcandidates, _, candidate,
        List.getLast?_concat, hcandidate, rfl⟩⟩
  | rest hfinal =>
      refine ⟨fun h => ?_, fun h => ?_, fun h => ?_⟩ <;> simp [h, Stage.isFinal] at hfinal
  | _ => exact ⟨by simp, by simp, by simp⟩

end Turns

/-! ## Histories -/

section Histories

variable {config : Config} {scaler : Scaler} {inputs : List Input} {i : Nat} {turn : Turn}

/-- Every turn of a history is a move on the ground of the turns before it. -/
theorem grounded_at (hturn : (history config scaler inputs)[i]? = some turn) :
    Grounded config scaler ((history config scaler inputs).take i) turn.before ∧
      turn.IsMove config scaler :=
  history_invariant (Grounded.nil config scaler) (fun _ _ => Grounded.next) hturn

theorem identified_of_take {workload : Workload}
    (h : Identified scaler ((history config scaler inputs).take i) workload) :
    Identified scaler (history config scaler inputs) workload := by
  rw [← List.take_append_drop i (history config scaler inputs)]
  exact h.append _

end Histories

/-- In every history the requests go back to the identified workload. -/
theorem history_provenance (config : Config) (scaler : Scaler) (inputs : List Input) :
    Provenance config scaler (history config scaler inputs) where
  workload_first {i turn key} hturn hrequest := by
    obtain ⟨hgrounded, hmove⟩ := grounded_at hturn
    obtain ⟨hstage, hkey⟩ := (hmove.sending hrequest).of_getWorkload
    have hlt : i < (history config scaler inputs).length := (List.getElem?_eq_some_iff.1 hturn).1
    have hempty := congrArg List.length (hgrounded.start hstage)
    rw [List.length_take, List.length_nil] at hempty
    exact ⟨by omega, hkey⟩
  deployment_listed {i turn key} hturn hrequest := by
    obtain ⟨hgrounded, hmove⟩ := grounded_at hturn
    have hstage := (hmove.sending hrequest).of_getDeployment
    obtain ⟨workload, hidentified, hcandidates, asking, candidate, hlast, hcandidate, hasked⟩ :=
      (hgrounded.next hmove).deployment hstage
    -- The turn itself is the last one after it.
    rw [List.getLast?_concat] at hlast
    cases hlast
    rw [hrequest] at hasked
    cases hasked
    rw [hcandidates] at hcandidate
    obtain ⟨hmem, hkind⟩ :=
      (mem_candidatesOf_iff config workload candidate).1 (List.mem_of_getElem? hcandidate)
    refine ⟨workload, identified_of_take (i := i + 1) ?_, candidate, hmem, hkind, rfl⟩
    rw [List.take_add_one, hturn]
    exact hidentified
  patch_read {i turn key patch} hturn hrequest := by
    obtain ⟨hgrounded, hmove⟩ := grounded_at hturn
    obtain ⟨hstage, -, deployment, owner, wanted, hresponse, howner, hwanted, hpatch, hkey⟩ :=
      (hmove.sending hrequest).of_patchDeployment
    obtain ⟨workload, hidentified, -, asking, candidate, hlast, -, hasked⟩ :=
      hgrounded.deployment hstage
    obtain ⟨k, hk, hasking⟩ := getElem?_of_getLast?_take hturn hlast
    exact ⟨⟨workload, identified_of_take hidentified⟩, k, asking, _, deployment, owner, wanted, hk,
      hasking, hasked, hresponse, howner, hwanted, hpatch, hkey⟩

end ReplicaKeeper.Reconcile
