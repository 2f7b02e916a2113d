import ReplicaKeeper.Proofs.Reconcile.Trail

/-!
# The scan of the candidates

Once the workload is known to be the right one, its resources of the scaled kind are asked for in
the order in which it reports them, repetitions included, until one is read.  Either one is read
with all before it failed, and only this one can be patched, or all of them failed and the error of
the last one is reported: `reconcile_scans`, whatever the store answers.

`Scan` says the same of the calls between the read of the scaler and the report; it is read off the
courses, `Course.scan`.
-/

set_option autoImplicit false

namespace ReplicaKeeper

/-! ## Looking at calls -/

namespace StoreCall

/-- The key under which a call asks for a Deployment, and what it was answered. -/
def deploymentAsked? : StoreCall → Option (Key × Response)
  | sent (.getDeployment key) response => some (key, response)
  | _ => none

/-- The key of the Deployment that a call patches. -/
def deploymentPatched? : StoreCall → Option Key
  | sent (.patchDeployment key _) _ => some key
  | _ => none

/-- The scaler whose status a call writes. -/
def statusWritten? : StoreCall → Option Scaler
  | sent (.updateStatus written) _ => some written
  | _ => none

end StoreCall

/-- Every call on a trail was answered by the store, in some world. -/
theorem Store.Leads.answered {σ : Type} {store : Store σ} {first last : σ} {calls : List StoreCall}
    (h : store.Leads first calls last) {request : Request} {response : Response}
    (hmem : .sent request response ∈ calls) : ∃ world, response = (store.send request world).1 := by
  induction h with
  | nil world => cases hmem
  | gotScaler key hrest ih =>
      rcases List.mem_cons.1 hmem with hhead | hmem
      · cases hhead
      · exact ih hmem
  | @sent world last calls other hrest ih =>
      rcases List.mem_cons.1 hmem with hhead | hmem
      · cases hhead
        exact ⟨world, rfl⟩
      · exact ih hmem

namespace Reconcile

/-! ## Scans -/

/-- The resources that a workload reports of the kind that is scaled. -/
def scalable (config : Config) (workload : Workload) : List TypedReference :=
  workload.managedResources.filter fun resource => resource.kind = some config.deploymentKind

/-- The questions for candidates, each of which failed. -/
def refusals (scaler : Scaler) (failed : List (TypedReference × ApiError)) :
    List (Key × Response) :=
  failed.map fun entry => (candidateKey scaler entry.1, .deployment (.error entry.2))

/-- What is found out when all candidates failed: there is none, or the last one failed. -/
def noneRead (failed : List (TypedReference × ApiError)) : Finding :=
  match failed.getLast? with
  | none => .noCandidate
  | some entry => .candidatesUnreadable entry.2

/-- The calls that search the candidates of a workload, and what is found out. -/
inductive Scan (config : Config) (scaler : Scaler) (workload : Workload) :
    List StoreCall → Finding → Prop
  /-- A candidate is read, all before it failed, and the patch that may follow is for the
  Deployment that was read. -/
  | found {failed : List (TypedReference × ApiError)} {chosen : TypedReference}
      {others : List TypedReference} {deployment : Deployment} {patches : List StoreCall}
      {finding : Finding}
      (hcandidates : scalable config workload = failed.map Prod.fst ++ chosen :: others)
      (hpatches : patches = [] ∨ ∃ patch response,
        patches = [.sent (.patchDeployment (targetKey scaler deployment) patch) response]) :
      Scan config scaler workload
        (askedWorkload scaler (.ok workload) :: passedOver scaler failed ++
          [askedCandidate scaler chosen (.ok deployment)] ++ patches) finding
  /-- No candidate is read. -/
  | exhausted {failed : List (TypedReference × ApiError)}
      (hcandidates : scalable config workload = failed.map Prod.fst) :
      Scan config scaler workload
        (askedWorkload scaler (.ok workload) :: passedOver scaler failed) (noneRead failed)

section Scans

variable {config : Config} {scaler : Scaler} {workload : Workload}

/-- The workload that was asked for is the one that the calls begin with. -/
theorem scan_of_locates {calls : List StoreCall} {deployment : Deployment}
    (h : Locates config scaler calls deployment) {patches : List StoreCall}
    (hpatches : patches = [] ∨ ∃ patch response,
      patches = [.sent (.patchDeployment (targetKey scaler deployment) patch) response])
    (hhead : (calls ++ patches).head? = some (askedWorkload scaler (.ok workload)))
    (finding : Finding) : Scan config scaler workload (calls ++ patches) finding := by
  cases h with
  | read hpoints hcandidates =>
      cases hhead
      exact .found hcandidates hpatches

/-- A course that passes the identity guard is a scan of the candidates. -/
theorem Course.scan {calls : List StoreCall} {finding : Finding}
    (h : Course config scaler calls finding)
    (hhead : calls.head? = some (askedWorkload scaler (.ok workload)))
    (hpoints : PointsTo scaler workload) : Scan config scaler workload calls finding := by
  cases h with
  | workloadUnreadable error => cases hhead
  | otherWorkload hother =>
      cases hhead
      exact absurd hpoints hother
  | noCandidate hpoints hnone =>
      cases hhead
      have hall : scalable config workload = ([] : List (TypedReference × ApiError)).map Prod.fst :=
        (candidatesOf_eq_nil_iff config workload).2 hnone
      exact .exhausted hall
  | @candidatesUnreadable found failed last error hpoints hcandidates =>
      cases hhead
      have hall : scalable config workload = (failed ++ [(last, error)]).map Prod.fst := by
        rw [List.map_append]
        exact hcandidates
      have hscan : Scan config scaler workload _ _ := .exhausted hall
      rw [passedOver, List.map_append, noneRead, List.getLast?_concat] at hscan
      exact hscan
  | ownerIncomplete hlocates howner =>
      have hscan := scan_of_locates hlocates (.inl rfl) (by rw [List.append_nil, hhead])
      rw [List.append_nil] at hscan
      exact hscan _
  | ownerRefused hlocates howner hrefuses =>
      have hscan := scan_of_locates hlocates (.inl rfl) (by rw [List.append_nil, hhead])
      rw [List.append_nil] at hscan
      exact hscan _
  | patchRefused error hlocates howner hdesired =>
      exact scan_of_locates hlocates (.inr ⟨_, _, rfl⟩) hhead _
  | scaled hlocates howner hdesired =>
      exact scan_of_locates hlocates (.inr ⟨_, _, rfl⟩) hhead _

end Scans

/-! ## The whole reconcile -/

/-- A reconcile that read a candidate. -/
structure ReadsFirst (config : Config) (scaler : Scaler) (workload : Workload)
    (calls : List StoreCall) (failed : List (TypedReference × ApiError)) (chosen : TypedReference)
    (deployment : Deployment) : Prop where
  /-- The candidate is one that the workload reports, and those before it failed. -/
  order : ∃ others, scalable config workload = failed.map Prod.fst ++ chosen :: others
  /-- These are all the Deployments that are asked for. -/
  asked : calls.filterMap StoreCall.deploymentAsked? =
    refusals scaler failed ++ [(candidateKey scaler chosen, .deployment (.ok deployment))]
  /-- If there is a patch, there is one, and it is for the Deployment that was read. -/
  patched : calls.filterMap StoreCall.deploymentPatched? = [] ∨
    calls.filterMap StoreCall.deploymentPatched? = [candidateKey scaler chosen]

/-- A reconcile that could read no candidate. -/
structure ReadsNone (config : Config) (scaler : Scaler) (workload : Workload)
    (calls : List StoreCall) (failed : List (TypedReference × ApiError)) : Prop where
  order : scalable config workload = failed.map Prod.fst
  /-- All candidates are asked for, and no other Deployment. -/
  asked : calls.filterMap StoreCall.deploymentAsked? = refusals scaler failed
  patched : calls.filterMap StoreCall.deploymentPatched? = []
  /-- The condition that is written carries the last error. -/
  reported : ∃ written condition, calls.filterMap StoreCall.statusWritten? = [written] ∧
    written.synced? = some condition ∧ condition.reason = .cannotLocateDeployment ∧
      condition.message = match failed.getLast? with
        | none => config.messages.locateDeployment
        | some entry => config.messages.locateDeployment ++ ": " ++ entry.2.message

section Looks

variable (scaler : Scaler) (failed : List (TypedReference × ApiError))

/-- Candidates that failed were asked for and not patched, and nothing was reported meanwhile. -/
theorem filterMap_passedOver :
    (passedOver scaler failed).filterMap StoreCall.deploymentAsked? = refusals scaler failed ∧
      (passedOver scaler failed).filterMap StoreCall.deploymentPatched? = [] ∧
      (passedOver scaler failed).filterMap StoreCall.statusWritten? = [] := by
  induction failed with
  | nil => exact ⟨rfl, rfl, rfl⟩
  | cons entry failed ih =>
      obtain ⟨hasked, hpatched, hwritten⟩ := ih
      exact ⟨congrArg (List.cons _) hasked, hpatched, hwritten⟩

/-- What a finding without a candidate says. -/
theorem message_noneRead (config : Config) : (noneRead failed).message config =
    match failed.getLast? with
    | none => config.messages.locateDeployment
    | some entry => config.messages.locateDeployment ++ ": " ++ entry.2.message := by
  unfold noneRead
  cases failed.getLast? <;> rfl

theorem reason_noneRead : (noneRead failed).reason = .cannotLocateDeployment := by
  unfold noneRead
  cases failed.getLast? <;> rfl

end Looks

section Reconciles

variable {σ : Type} {config : Config} {store : Store σ} {scaler : Scaler} {workload : Workload}

/-- Every course begins with the question for the workload. -/
theorem Course.head? {calls : List StoreCall} {finding : Finding}
    (h : Course config scaler calls finding) :
    ∃ answer rest, calls = askedWorkload scaler answer :: rest := by
  cases h with
  | workloadUnreadable | otherWorkload | noCandidate | candidatesUnreadable => exact ⟨_, _, rfl⟩
  | ownerIncomplete hlocates | ownerRefused hlocates =>
      cases hlocates
      exact ⟨_, _, rfl⟩
  | patchRefused error hlocates | scaled hlocates =>
      cases hlocates
      exact ⟨_, _, rfl⟩

/-- The workload of a course is the one that the store answers with. -/
theorem head?_of_leads {first last : σ} {searched more : List StoreCall} {finding : Finding}
    (hcourse : Course config scaler searched finding)
    (hleads : store.Leads first (searched ++ more) last)
    (hworkload : (store.getWorkload (workloadKey scaler) first).1 = .ok workload) :
    searched.head? = some (askedWorkload scaler (.ok workload)) := by
  obtain ⟨answer, rest, rfl⟩ := hcourse.head?
  obtain ⟨hanswer, -⟩ := hleads.of_sent
  change Response.workload answer = .workload (store.getWorkload (workloadKey scaler) first).1
    at hanswer
  rw [hworkload] at hanswer
  cases hanswer
  rfl

variable {now : Time} {key : Key} {world : σ}

/-- The key under which a Deployment is patched is that under which it was read. -/
theorem targetKey_of_leads
    (hnamed : ∀ key world deployment, (store.getDeployment key world).1 = .ok deployment →
      deployment.metadata.name = some key.name)
    {first last : σ} {calls : List StoreCall} (hleads : store.Leads first calls last)
    {chosen : TypedReference} {deployment : Deployment}
    (hmem : askedCandidate scaler chosen (.ok deployment) ∈ calls) :
    targetKey scaler deployment = candidateKey scaler chosen := by
  obtain ⟨between, hanswer⟩ := hleads.answered hmem
  have hread : (store.getDeployment (candidateKey scaler chosen) between).1 = .ok deployment :=
    (Response.deployment.inj hanswer).symm
  unfold targetKey
  rw [hnamed _ _ _ hread]
  rfl

/-- A reconcile that finds the right workload reads the first of its candidates that can be read,
and asks for none after it; if there is no such one it reports the error of the last. -/
theorem reconcile_scans
    (hnamed : ∀ key world deployment, (store.getDeployment key world).1 = .ok deployment →
      deployment.metadata.name = some key.name)
    (hread : (store.getScaler key world).1 = .ok scaler)
    (hworkload :
      (store.getWorkload (workloadKey scaler) (store.getScaler key world).2).1 = .ok workload)
    (hpoints : PointsTo scaler workload) :
    (∃ failed chosen deployment, ReadsFirst config scaler workload
      (calls now config store key world) failed chosen deployment) ∨
    ∃ failed, ReadsNone config scaler workload (calls now config store key world) failed := by
  obtain ⟨searched, finding, answer, hcourse, hcalls, -⟩ :=
    reconcile_course now config store hread
  have hleads := reconcile_leads now config store key world
  rw [hcalls] at hleads ⊢
  have hhead := head?_of_leads hcourse hleads.of_gotScaler hworkload
  cases hcourse.scan hhead hpoints with
  | @found failed chosen others deployment patches finding hcandidates hpatches =>
      obtain ⟨hasked, hpatched, -⟩ := filterMap_passedOver scaler failed
      have htarget : targetKey scaler deployment = candidateKey scaler chosen :=
        targetKey_of_leads hnamed hleads (by simp)
      have hquiet : patches.filterMap StoreCall.deploymentAsked? = [] := by
        rcases hpatches with rfl | ⟨patch, response, rfl⟩ <;> rfl
      have hkeys : patches.filterMap StoreCall.deploymentPatched? = [] ∨
          patches.filterMap StoreCall.deploymentPatched? = [candidateKey scaler chosen] := by
        rcases hpatches with rfl | ⟨patch, response, rfl⟩
        · exact .inl rfl
        · exact .inr (congrArg (fun key => [key]) htarget)
      refine .inl ⟨failed, chosen, deployment, ⟨others, hcandidates⟩, ?_, ?_⟩
      · simp [List.filterMap_cons, hasked, hquiet, askedWorkload, askedCandidate,
          StoreCall.deploymentAsked?]
      · simpa [List.filterMap_cons, hpatched, askedWorkload, askedCandidate,
          StoreCall.deploymentPatched?] using hkeys
  | @exhausted failed hcandidates =>
      obtain ⟨hasked, hpatched, hwritten⟩ := filterMap_passedOver scaler failed
      obtain ⟨condition, hsynced, -, hreason, hmessage⟩ :=
        (noneRead failed).synced?_reporting config now scaler
      refine .inr ⟨failed, hcandidates, ?_, ?_, _, condition, ?_, hsynced,
        hreason.trans (reason_noneRead failed), hmessage.trans (message_noneRead failed config)⟩
      · simp [List.filterMap_cons, hasked, askedWorkload, StoreCall.deploymentAsked?]
      · simp [List.filterMap_cons, hpatched, askedWorkload, StoreCall.deploymentPatched?]
      · simp [List.filterMap_cons, hwritten, askedWorkload, StoreCall.statusWritten?]

end Reconciles

/-- A store with a scaler and its workload, from which the second Deployment can be read and not the
first. -/
def sampleScan : Store Unit where
  getScaler _ world := (.ok sampleScanner, world)
  getWorkload _ world := (.ok sampleListing, world)
  getDeployment key world :=
    (if key.name = "back" then .ok { metadata := { name := some "back" } } else .error .notFound,
      world)
  patchDeployment _ _ world := (.error .notFound, world)
  updateStatus written world := (.ok written, world)

theorem reconcile_scans_sampleScan :
    (∀ key world deployment, (sampleScan.getDeployment key world).1 = .ok deployment →
      deployment.metadata.name = some key.name) ∧
    PointsTo sampleScanner sampleListing ∧
    ((∃ failed chosen deployment, ReadsFirst {} sampleScanner sampleListing
        (calls default {} sampleScan ⟨"shop", "web"⟩ ()) failed chosen deployment) ∨
      ∃ failed, ReadsNone {} sampleScanner sampleListing
        (calls default {} sampleScan ⟨"shop", "web"⟩ ()) failed) := by
  have hnamed : ∀ key world deployment, (sampleScan.getDeployment key world).1 = .ok deployment →
      deployment.metadata.name = some key.name := by
    intro key world deployment hdeployment
    change (if key.name = "back" then _ else _) = _ at hdeployment
    split at hdeployment
    · next hback =>
      cases hdeployment
      rw [hback]
    · cases hdeployment
  have hpoints : PointsTo sampleScanner sampleListing := ⟨"workload", rfl, rfl⟩
  exact ⟨hnamed, hpoints, reconcile_scans hnamed rfl rfl hpoints⟩

end Reconcile

end ReplicaKeeper
