import ReplicaKeeper.Proofs.Reconcile.Recording

/-!
# How much a reconcile asks for

Stores may answer as they like.  Still a reconcile makes at most four calls and one more for each
candidate, never takes an answer for one to another request, and never leaves the list of its
candidates: `reconcile_bounded`.
-/

set_option autoImplicit false

namespace ReplicaKeeper

/-- The workload that a call fetched. -/
def StoreCall.workload? : StoreCall → Option Workload
  | .sent _ (.workload (.ok workload)) => some workload
  | _ => none

namespace Reconcile

/-- How many resources of the kind that is scaled the workload reports that some calls fetched. -/
def scalableCount (config : Config) (calls : List StoreCall) : Nat :=
  match calls.findSome? StoreCall.workload? with
  | some workload =>
      workload.managedResources.countP fun resource => resource.kind = some config.deploymentKind
  | none => 0

/-- Later calls do not take away from the count. -/
theorem scalableCount_le_append (config : Config) (calls more : List StoreCall) :
    scalableCount config calls ≤ scalableCount config (calls ++ more) := by
  unfold scalableCount
  rw [List.findSome?_append]
  cases calls.findSome? StoreCall.workload? with
  | none => exact Nat.zero_le _
  | some workload => exact Nat.le_refl _

/-- The candidates are counted as soon as the workload is fetched. -/
theorem scalableCount_fetched (config : Config) {calls : List StoreCall}
    (hnone : calls.findSome? StoreCall.workload? = none) (request : Request) (workload : Workload) :
    scalableCount config (calls ++ [.sent request (.workload (.ok workload))]) =
      (candidatesOf config workload).length := by
  unfold scalableCount
  rw [List.findSome?_append, hnone]
  exact List.countP_eq_length_filter

/-! ## Counting calls -/

/-- How many calls have been made at most in a state, of a reconcile with `n` candidates. -/
def State.callsMade (n : Nat) (state : State) : Nat :=
  match state.stage with
  | .init => 1
  | .awaiting .afterGetWorkload => 2
  | .awaiting .afterGetDeployment => state.candidateIndex + 3
  | .awaiting .afterPatchDeployment => n + 3
  | _ => n + 4

/-- A state keeps within its `n` candidates, and within the calls that they allow for. -/
structure State.Within (n calls : Nat) (state : State) : Prop where
  candidates_le : state.candidates.length ≤ n
  index_le : state.candidateIndex ≤ state.candidates.length
  index_lt : state.stage = .awaiting .afterGetDeployment →
    state.candidateIndex < state.candidates.length
  calls_le : calls ≤ state.callsMade n

namespace State.Within

variable {now : Time} {config : Config} {scaler : Scaler} {state next : State}
  {response : Option Response} {request : Request} {n m calls : Nat}

/-- What is allowed for comes to no more than four calls and the candidates. -/
theorem calls_le_add (h : state.Within n calls) : calls ≤ n + 4 := by
  have hcandidates := h.candidates_le
  have hindex := h.index_le
  have hcalls := h.calls_le
  unfold callsMade at hcalls
  split at hcalls <;> omega

/-- A move without a request keeps within. -/
theorem rest (h : state.Within n calls)
    (hmove : Move now config scaler state response none next) : next.Within n calls := by
  obtain ⟨hfinal, hcandidates, hindex⟩ := hmove.of_none
  have hcalls := h.calls_le_add
  refine ⟨?_, ?_, ?_, ?_⟩
  · rw [hcandidates]
    exact h.candidates_le
  · rw [hcandidates, hindex]
    exact h.index_le
  · intro hstage
    simp [hstage, Stage.isFinal] at hfinal
  · unfold callsMade
    split <;> simp_all [Stage.isFinal]

/-- A move with a request keeps within, when the candidates of a fetched workload are counted. -/
theorem ask (h : state.Within n calls) (hle : n ≤ m)
    (hfetched : ∀ workload, state.stage = .awaiting .afterGetWorkload →
      response = some (.workload (.ok workload)) → (candidatesOf config workload).length ≤ m)
    (hmove : Move now config scaler state response (some request) next) :
    next.Within m (calls + 1) := by
  have hcandidates := h.candidates_le
  have hindex := h.index_le
  have hcalls := h.calls_le
  cases hmove with
  | start hstage =>
      simp only [callsMade, hstage] at hcalls
      refine ⟨Nat.le_trans hcandidates hle, hindex, by simp, ?_⟩
      simp only [callsMade]
      omega
  | @askFirst workload first others hstage hidentity hall =>
      simp only [callsMade, hstage] at hcalls
      have hlength := hfetched workload hstage rfl
      rw [hall] at hlength
      refine ⟨hlength, Nat.zero_le _, fun _ => Nat.succ_pos _, ?_⟩
      simp only [callsMade]
      omega
  | askNext hstage hcandidate =>
      simp only [callsMade, hstage] at hcalls
      have hlt := (List.getElem?_eq_some_iff.1 hcandidate).1
      refine ⟨Nat.le_trans hcandidates hle, Nat.le_of_lt hlt, fun _ => hlt, ?_⟩
      simp only [callsMade, passOver]
      omega
  | giveUp hstage error hcandidate =>
      simp only [callsMade, hstage] at hcalls
      refine ⟨Nat.le_trans hcandidates hle, h.index_lt hstage, by simp, ?_⟩
      simp only [callsMade]
      omega
  | patch hstage howner hdesired =>
      simp only [callsMade, hstage] at hcalls
      have hlt := h.index_lt hstage
      refine ⟨Nat.le_trans hcandidates hle, hindex, by simp, ?_⟩
      simp only [callsMade]
      omega
  | report hstage finding hsettles =>
      have hbefore : calls ≤ n + 3 := by
        rw [callsMade, hstage] at hcalls
        cases hsettles <;> dsimp only at hcalls <;> omega
      refine ⟨Nat.le_trans hcandidates hle, hindex, by simp, ?_⟩
      simp only [callsMade]
      omega

end State.Within

/-! ## Sound sessions -/

/-- A session after some calls that began with the one that read its scaler. -/
structure Session.Sound (config : Config) (calls : List StoreCall) (session : Session) : Prop where
  /-- The response is one to the request that the session waits for. -/
  answered : ∀ phase, session.state.stage = .awaiting phase →
    phase.isAnsweredBy session.response = true
  expected : ∀ phase, session.state.stage ≠ .failed (.unexpectedResponse phase)
  /-- The workload is fetched by the first request, and its candidates are counted. -/
  unfetched : session.state.stage = .init → calls.findSome? StoreCall.workload? = none
  fetched : ∀ workload, session.state.stage = .awaiting .afterGetWorkload →
    session.response = some (.workload (.ok workload)) →
    (candidatesOf config workload).length ≤ scalableCount config calls
  within : session.state.Within (scalableCount config calls) calls.length

namespace Session.Sound

variable {now : Time} {config : Config} {calls : List StoreCall} {session : Session}

theorem start (config : Config) (key : Key) (scaler : Scaler) :
    Sound config [.gotScaler key (.ok scaler)] { scaler } where
  answered := by simp
  expected := by simp
  unfetched _ := rfl
  fetched := by simp
  within := ⟨Nat.zero_le _, Nat.le_refl _, by simp, Nat.le_refl _⟩

/-- A step without a request ends the session. -/
theorem rest {next : State} (h : Sound config calls session)
    (hmove : Move now config session.scaler session.state session.response none next) :
    Sound config calls { session with state := next, response := none } := by
  have hfinal (stage : Stage) (hstage : next.stage = stage) : stage.isFinal = true := by
    rw [← hstage]
    exact hmove.of_none.1
  refine ⟨?_, ?_, ?_, ?_, h.within.rest hmove⟩
  · intro phase hstage
    cases hfinal _ hstage
  · intro phase hstage
    rcases hmove.of_unexpectedResponse hstage with hbefore | ⟨hbefore, hresponse⟩
    · exact h.expected phase hbefore
    · rw [h.answered phase hbefore] at hresponse
      cases hresponse
  · intro hstage
    cases hfinal _ hstage
  · intro workload hstage
    cases hfinal _ hstage

/-- A step with a request gets an answer to it, and adds the call. -/
theorem ask {σ : Type} (store : Store σ) (world : σ) {request : Request} {next : State}
    (h : Sound config calls session)
    (hmove : Move now config session.scaler session.state session.response (some request) next) :
    Sound config (calls ++ [.sent request (store.send request world).1])
      { session with state := next, response := some (store.send request world).1 } := by
  obtain ⟨phase, hphase, hanswered⟩ := hmove.of_some
  have hle := scalableCount_le_append config calls [.sent request (store.send request world).1]
  refine ⟨?_, ?_, ?_, ?_, ?_⟩
  · intro awaited hstage
    rw [hphase] at hstage
    cases hstage
    exact hanswered store world
  · intro awaited hstage
    rw [hphase] at hstage
    cases hstage
  · intro hstage
    rw [hphase] at hstage
    cases hstage
  · intro workload hstage hresponse
    have hunfetched := h.unfetched (hmove.init_of_stage hstage)
    have hcount := scalableCount_fetched config hunfetched request workload
    rw [Option.some.inj hresponse]
    exact Nat.le_of_eq hcount.symm
  · rw [List.length_append]
    refine h.within.ask hle (fun workload hstage hresponse => ?_) hmove
    exact Nat.le_trans (h.fetched workload hstage hresponse) hle

/-- A round on a recorded store keeps a session sound, and adds a call unless the session ends. -/
theorem advance {σ : Type} (now : Time) (store : Store σ) (world : σ)
    (h : Sound config calls session) :
    let next := session.advance now config store.recording (world, calls)
    Sound config next.2.2 next.1 ∧
      (next.1.state.stage.isFinal = false → next.2.2.length = calls.length + 1) := by
  have hmove := @nextStep_move now config session
  cases hrequest : (session.nextStep now config).2 with
  | none =>
      rw [hrequest] at hmove
      rw [advance_of_none _ _ hrequest]
      refine ⟨h.rest hmove, fun hgoing => ?_⟩
      rw [hmove.of_none.1] at hgoing
      cases hgoing
  | some request =>
      rw [hrequest] at hmove
      rw [advance_of_some _ _ hrequest, store.send_recording]
      exact ⟨h.ask store world hmove, fun _ => List.length_append⟩

/-- Rounds keep a session sound, and every round adds a call until the session ends. -/
theorem rounds {σ : Type} (now : Time) (store : Store σ) (k : Nat) (world : σ)
    (h : Sound config calls session) :
    let ended := Session.rounds now config store.recording k session (world, calls)
    Sound config ended.2.2 ended.1 ∧
      (ended.1.state.stage.isFinal = false → ended.2.2.length = calls.length + k) := by
  induction k generalizing session world calls with
  | zero => exact ⟨h, fun _ => rfl⟩
  | succ k ih =>
      obtain ⟨hnext, hone⟩ := h.advance now store world
      obtain ⟨hended, hmore⟩ := ih _ hnext
      refine ⟨hended, fun hgoing => ?_⟩
      cases hfinal :
          (session.advance now config store.recording (world, calls)).1.state.stage.isFinal with
      | true =>
          change (Session.rounds now config store.recording k _ _).1.state.stage.isFinal = false
            at hgoing
          rw [rounds_of_isFinal _ _ _ hfinal, hfinal] at hgoing
          cases hgoing
      | false =>
          have hlength := hmore hgoing
          rw [hone hfinal, Nat.add_assoc, Nat.add_comm 1] at hlength
          exact hlength

end Session.Sound

/-! ## Reconciles -/

section Reconciles

variable {σ : Type} (now : Time) (config : Config) (store : Store σ) (key : Key) (world : σ)

/-- How a reconcile keeps within what its workload allows for. -/
structure Bounded : Prop where
  /-- At most four calls are made, and one more for each candidate. -/
  calls_le : (calls now config store key world).length ≤
    scalableCount config (calls now config store key world) + 4
  /-- No answer is taken for one to another request. -/
  expected : ∀ phase,
    (reconcile now config store key world).1 ≠ .error (.stepFailed (.unexpectedResponse phase))
  /-- The rounds come to an end, which is that of the reconcile. -/
  ends : ∀ {scaler : Scaler}, (store.getScaler key world).1 = .ok scaler →
    ∃ k ≤ scalableCount config (calls now config store key world) + 4,
      let ended := Session.rounds now config store k { scaler } (store.getScaler key world).2
      ended.1.state.stage.isFinal = true ∧
        reconcile now config store key world =
          (ended.1.state.verdict.mapError .stepFailed, ended.2)
  /-- After any number of rounds the place of the candidate that was asked for is one of the list,
  and no place is counted beyond the number of the candidates. -/
  in_bounds : ∀ {scaler : Scaler} (k : Nat), (store.getScaler key world).1 = .ok scaler →
    let visited := Session.rounds now config store k { scaler } (store.getScaler key world).2
    let state := visited.1.state
    state.candidateIndex ≤ scalableCount config (calls now config store key world) ∧
      (state.stage = .awaiting .afterGetDeployment →
        state.candidateIndex < state.candidates.length ∧
          state.candidateIndex + 1 ≤ scalableCount config (calls now config store key world))

/-- A reconcile fails as its last state says. -/
theorem stage_of_mapError_verdict {state : State} {error : StepError}
    (h : state.verdict.mapError ReconcileError.stepFailed = .error (.stepFailed error)) :
    state.stage = .failed error := by
  unfold State.verdict State.error? at h
  cases hstage : state.stage with
  | failed found =>
      rw [hstage] at h
      cases h
      rfl
  | _ =>
      rw [hstage] at h
      cases h

/-- After some rounds of its session, a reconcile is sound with the calls so far. -/
theorem sound_rounds {scaler : Scaler} (h : (store.getScaler key world).1 = .ok scaler) (k : Nat) :
    let visited := Session.rounds now config store k { scaler } (store.getScaler key world).2
    ∃ made rest, calls now config store key world = made ++ rest ∧ visited.1.Sound config made ∧
      (visited.1.state.stage.isFinal = false → made.length = 1 + k) ∧
      (visited.1.state.stage.isFinal = true → rest = []) := by
  intro visited
  obtain ⟨more, hmore⟩ := Session.rounds_recording now config store k { scaler }
    (store.getScaler key world).2
  have hrounds := hmore [.gotScaler key (.ok scaler)]
  have hsound := (Session.Sound.start config key scaler).rounds now store k
    (store.getScaler key world).2
  have hrun := Session.run_rounds now config store.recording k { scaler }
    ((store.getScaler key world).2, [.gotScaler key (.ok scaler)])
  rw [hrounds] at hsound hrun
  rw [Session.run_recording, Session.run_recording] at hrun
  refine ⟨_, visited.1.calls now config store visited.2, ?_, hsound.1, hsound.2, fun hfinal => ?_⟩
  · rw [calls_of_ok now config store h]
    exact (congrArg (fun ended => ended.2.2) hrun).symm
  · rw [Session.calls, Session.run_of_isFinal _ _ hfinal]

/-- The rounds of a reconcile come to an end at which it is sound with all its calls. -/
theorem ends_of_ok {scaler : Scaler} (h : (store.getScaler key world).1 = .ok scaler) :
    ∃ k ≤ scalableCount config (calls now config store key world) + 4,
      let ended := Session.rounds now config store k { scaler } (store.getScaler key world).2
      ended.1.state.stage.isFinal = true ∧
        reconcile now config store key world =
          (ended.1.state.verdict.mapError .stepFailed, ended.2) ∧
        ended.1.Sound config (calls now config store key world) := by
  obtain ⟨k, hfinal, hbefore⟩ := Session.exists_rounds_isFinal now config store { scaler }
    (store.getScaler key world).2
  refine ⟨k, ?_, hfinal, ?_, ?_⟩
  · -- In every round before the last one a call was made.
    cases k with
    | zero => exact Nat.zero_le _
    | succ k =>
        obtain ⟨made, rest, hcalls, hsound, hlength, -⟩ :=
          sound_rounds now config store key world h k
        have hmade := hlength (hbefore k (Nat.lt_succ_self k))
        have hle := hsound.within.calls_le_add
        have hcount := scalableCount_le_append config made rest
        rw [hcalls]
        omega
  · rw [reconcile_of_ok now config store h, ← Session.run_rounds now config store k,
      Session.run_of_isFinal _ _ hfinal]
  · obtain ⟨made, rest, hcalls, hsound, -, hrest⟩ := sound_rounds now config store key world h k
    rw [hcalls, hrest hfinal, List.append_nil]
    exact hsound

/-- Every reconcile keeps within its bounds, however its store answers. -/
theorem reconcile_bounded : Bounded now config store key world := by
  cases hread : (store.getScaler key world).1 with
  | error error =>
      refine ⟨?_, ?_, ?_, ?_⟩
      · rw [calls_of_error now config store hread]
        exact Nat.le_add_left _ _
      · intro phase
        rw [reconcile_of_error now config store hread]
        split <;> simp
      · intro scaler h
        rw [hread] at h
        cases h
      · intro scaler k h
        rw [hread] at h
        cases h
  | ok scaler =>
      obtain ⟨k, hle, hfinal, hend, hsound⟩ := ends_of_ok now config store key world hread
      refine ⟨hsound.within.calls_le_add, ?_, ?_, ?_⟩
      · intro phase hfailed
        rw [hend] at hfailed
        exact hsound.expected phase (stage_of_mapError_verdict hfailed)
      · intro given hgiven
        rw [hread] at hgiven
        cases hgiven
        exact ⟨k, hle, hfinal, hend⟩
      · intro given j hgiven
        rw [hread] at hgiven
        cases hgiven
        obtain ⟨made, rest, hcalls, hvisited, -, -⟩ :=
          sound_rounds now config store key world hread j
        have hcandidates := hvisited.within.candidates_le
        have hindex := hvisited.within.index_le
        have hcount := scalableCount_le_append config made rest
        rw [hcalls]
        refine ⟨by omega, fun hstage => ?_⟩
        have hlt := hvisited.within.index_lt hstage
        exact ⟨hlt, by omega⟩

end Reconciles
end Reconcile
end ReplicaKeeper
