import ReplicaKeeper.Proofs.Reconcile.Patch
import ReplicaKeeper.Proofs.Server.Deeds
import ReplicaKeeper.Proofs.Server.Patching

/-!
# What a reconcile does to a server

One reconcile on a server in memory writes the status of its scaler, and it changes at most one
Deployment: the first candidate that it could read.  `Effect` says what that Deployment becomes and
what stays as it is, and `reconcile_effect` that this is all, whatever faults are pending.
-/

set_option autoImplicit false

namespace ReplicaKeeper

open Entries

/-! ## Requests that read -/

/-- A call that only reads. -/
def StoreCall.Reads : StoreCall → Prop
  | .gotScaler _ _ => True
  | .sent (.getWorkload _) _ => True
  | .sent (.getDeployment _) _ => True
  | .sent _ _ => False

namespace Server

/-- Calls that only read leave all objects as they are. -/
theorem sameObjects_of_reads {calls : List StoreCall} (hreads : ∀ call ∈ calls, call.Reads)
    {before after : Server} (h : store.Leads before calls after) : SameObjects after before := by
  induction h with
  | nil server => exact .refl server
  | @gotScaler server last calls key hrest ih =>
      have hlater := ih fun call hmem => hreads call (List.mem_cons_of_mem _ hmem)
      exact hlater.trans (sameObjects_getScaler key server)
  | @sent server last calls request hrest ih =>
      have hlater := ih fun call hmem => hreads call (List.mem_cons_of_mem _ hmem)
      have hread := hreads _ List.mem_cons_self
      cases request with
      | getWorkload key => exact hlater.trans (sameObjects_getWorkload key server)
      | getDeployment key => exact hlater.trans (sameObjects_getDeployment key server)
      | patchDeployment key patch => exact absurd hread id
      | updateStatus sent => exact absurd hread id

end Server

namespace Reconcile

open Server

/-! ## Searches -/

section Searches

variable {config : Config} {scaler : Scaler} {calls : List StoreCall} {before after : Server}

/-- The calls end with the first candidate that could be read. -/
inductive Chooses (config : Config) (scaler : Scaler) (chosen : TypedReference)
    (fetched : Deployment) : List StoreCall → Prop
  | read {earlier : List StoreCall}
      (hlocates : Locates config scaler
        (earlier ++ [askedCandidate scaler chosen (.ok fetched)]) fetched) :
      Chooses config scaler chosen fetched
        (earlier ++ [askedCandidate scaler chosen (.ok fetched)])

theorem exists_chooses {fetched : Deployment} (h : Locates config scaler calls fetched) :
    ∃ chosen, Chooses config scaler chosen fetched calls := by
  have hlocates := h
  cases h with
  | @read workload failed chosen others _ hpoints hcandidates =>
      exact ⟨chosen, .read hlocates⟩

theorem reads_of_asked {workload : Except ApiError Workload}
    {failed : List (TypedReference × ApiError)} {last : TypedReference}
    {answer : Except ApiError Deployment} :
    ∀ call ∈ askedWorkload scaler workload :: passedOver scaler failed ++
      [askedCandidate scaler last answer], call.Reads := by
  intro call hmem
  simp only [passedOver, List.cons_append, List.mem_cons, List.mem_append, List.mem_map,
    List.not_mem_nil, or_false] at hmem
  rcases hmem with rfl | ⟨entry, -, rfl⟩ | rfl <;> exact trivial

theorem reads_of_locates {fetched : Deployment} (h : Locates config scaler calls fetched) :
    ∀ call ∈ calls, call.Reads := by
  cases h with
  | read hpoints hcandidates => exact reads_of_asked

/-- The first candidate that could be read is what the server has stored. -/
theorem Chooses.get? {chosen : TypedReference} {fetched : Deployment}
    (h : Chooses config scaler chosen fetched calls) (hleads : store.Leads before calls after) :
    Entries.get? before.deployments (candidateKey scaler chosen) = some fetched := by
  cases h with
  | @read earlier hlocates =>
      obtain ⟨between, hearlier, hlast⟩ := Store.Leads.append_iff.1 hleads
      have hreads := reads_of_locates hlocates
      have hsame := sameObjects_of_reads
        (fun call hmem => hreads call (List.mem_append_left _ hmem)) hearlier
      have hsent := Store.Leads.sent_iff.1 hlast
      rw [send_getDeployment, hsame.deployments] at hsent
      exact get?_of_answerOf (Response.deployment.inj (congrArg Prod.fst hsent))

/-- The first candidate that could be read has been scaled. -/
structure Scaling (config : Config) (scaler : Scaler) (calls : List StoreCall)
    (before after : Entries Key Deployment) (chosen : TypedReference)
    (fetched changed : Deployment) (owner : OwnerReference) : Prop where
  /-- The calls show that it is the first candidate that could be read. -/
  chooses : ∃ located rest, calls = located ++ rest ∧ Chooses config scaler chosen fetched located
  /-- It lies in the namespace of the scaler. -/
  key_eq : changed.metadata.key = candidateKey scaler chosen
  fetched_eq : Entries.get? before (candidateKey scaler chosen) = some fetched
  changed_eq : Entries.get? after (candidateKey scaler chosen) = some changed
  others : ∀ other, other ≠ candidateKey scaler chosen →
    Entries.get? after other = Entries.get? before other
  /-- It is owned, and has the replicas that the scaler asks for. -/
  wanted : ∃ owned, fetched.withOwner owner = .ok owned ∧
    changed.SameButVersion (owned.withReplicas scaler.spec.replicaCount)
  replicas : changed.spec.bind (·.replicas) = some scaler.spec.replicaCount
  /-- The scaler is among its owners, as the controller. -/
  owner_eq : scaler.ownerReference? = some owner
  controller : owner.isController = true
  owned : owner ∈ changed.metadata.owners

/-- A scaler owns as the controller. -/
theorem isController_of_ownerReference? {owner : OwnerReference}
    (h : scaler.ownerReference? = some owner) : owner.isController = true := by
  obtain ⟨name, uid, -, -, rfl⟩ := (scaler.ownerReference?_eq_some_iff owner).1 h
  rfl

/-- A Deployment under its own key is patched where it was read. -/
theorem targetKey_eq_candidateKey {chosen : TypedReference} {fetched : Deployment}
    (h : fetched.metadata.key = candidateKey scaler chosen) :
    targetKey scaler fetched = candidateKey scaler chosen :=
  congrArg (fun key : Key => (⟨namespaceOf scaler, key.name⟩ : Key)) h

/-- A patch of a reconcile that succeeds scales the Deployment that was read. -/
theorem scaling_of_patched {located : List StoreCall} {between : Server} {chosen : TypedReference}
    {fetched wanted result : Deployment} {owner : OwnerReference} (hkeyed : before.Keyed)
    (hhook : before.beforePatch = none) (hlocates : Locates config scaler located fetched)
    (hchooses : Chooses config scaler chosen fetched located)
    (hleads : store.Leads before located between) (howner : scaler.ownerReference? = some owner)
    (hdesired : desired scaler owner fetched = .ok wanted)
    (hsent : store.send (.patchDeployment (targetKey scaler fetched)
      (patchTo config fetched wanted)) between = (.patched (.ok result), after))
    (rest : List StoreCall) :
    after.scalers = before.scalers ∧ after.workloads = before.workloads ∧
      ∃ version, Scaling config scaler (located ++ rest) before.deployments after.deployments chosen
        fetched (wanted.wholeSeconds.withVersion version) owner := by
  have hsame : SameObjects between before := sameObjects_of_reads (reads_of_locates hlocates) hleads
  have hstored : Entries.get? before.deployments (candidateKey scaler chosen) = some fetched :=
    hchooses.get? hleads
  have hkey : fetched.metadata.key = candidateKey scaler chosen :=
    hkeyed.deployments hhook _ _ hstored
  rw [targetKey_eq_candidateKey hkey] at hsent
  have hpatched := patchDeployment_of_send hsent
  have hnone : between.beforePatch = none := hsame.beforePatch.trans hhook
  rcases patchDeployment_cases hnone (candidateKey scaler chosen) (patchTo config fetched wanted)
    with ⟨error, herror, -⟩ | ⟨answer, current, merged, version, -, hcurrent, hmerged, hchanged⟩
  · rw [hpatched] at herror
    cases herror
  · obtain rfl : current = fetched := by
      rw [hsame.deployments, hstored] at hcurrent
      exact (Option.some.inj hcurrent).symm
    obtain ⟨-, -, rfl⟩ := (patched_patchTo_eq_ok_iff config hdesired _ _).1 hmerged
    rw [hpatched] at hchanged
    obtain ⟨owned, howned, hwanted⟩ := desired_eq_ok_iff.1 hdesired
    obtain ⟨owners, howners, hplaced⟩ := exists_owners_of_desired hdesired
    obtain ⟨-, -, -, rfl⟩ := (OwnerReference.addTo_eq_ok_iff _ _ _).1 howners
    have hframe := hchanged.of_sameObjects hsame
    refine ⟨hframe.scalers, hframe.workloads, version, ⟨⟨located, rest, rfl, hchooses⟩, ?_, hstored,
      hframe.deployment, hframe.others, ⟨owned, howned, ?_⟩, ?_, howner,
      isController_of_ownerReference? howner, ?_⟩⟩
    · subst hplaced
      exact hkey
    · rw [← hwanted]
      exact Deployment.sameButVersion_wholeSeconds version wanted
    · subst hplaced
      rfl
    · subst hplaced
      exact OwnerReference.mem_place_self owner _

/-- Before the report a course leaves the Deployments as they are, or it scales the first candidate
that could be read. -/
structure Searched (config : Config) (scaler : Scaler) (calls : List StoreCall)
    (before after : Server) (finding : Finding) : Prop where
  scalers : after.scalers = before.scalers
  workloads : after.workloads = before.workloads
  deployments : (finding ≠ .scaled ∧ after.deployments = before.deployments) ∨
    finding = .scaled ∧ ∃ chosen fetched changed owner,
      Scaling config scaler calls before.deployments after.deployments chosen fetched changed owner

theorem Searched.of_sameObjects {finding : Finding} (hfinding : finding ≠ .scaled)
    (hsame : SameObjects after before) : Searched config scaler calls before after finding :=
  ⟨hsame.scalers, hsame.workloads, .inl ⟨hfinding, hsame.deployments⟩⟩

theorem course_searched {finding : Finding} (hkeyed : before.Keyed)
    (hhook : before.beforePatch = none) (hcourse : Course config scaler calls finding)
    (hleads : store.Leads before calls after) :
    Searched config scaler calls before after finding := by
  cases hcourse with
  | workloadUnreadable | otherWorkload | noCandidate =>
      refine .of_sameObjects nofun (sameObjects_of_reads (fun call hmem => ?_) hleads)
      obtain rfl := List.mem_singleton.1 hmem
      exact trivial
  | candidatesUnreadable => exact .of_sameObjects nofun (sameObjects_of_reads reads_of_asked hleads)
  | ownerIncomplete hlocates | ownerRefused hlocates =>
      exact .of_sameObjects nofun (sameObjects_of_reads (reads_of_locates hlocates) hleads)
  | @patchRefused located fetched wanted owner error hlocates howner hdesired =>
      obtain ⟨between, hlocated, hlast⟩ := Store.Leads.append_iff.1 hleads
      have hsame := sameObjects_of_reads (reads_of_locates hlocates) hlocated
      have hpatched := patchDeployment_of_send (Store.Leads.sent_iff.1 hlast)
      rcases patchDeployment_cases (hsame.beforePatch.trans hhook) (targetKey scaler fetched)
          (patchTo config fetched wanted) with ⟨_, -, hkept⟩ | ⟨answer, _, _, _, hanswer, -⟩
      · rw [hpatched] at hkept
        exact .of_sameObjects nofun (hkept.trans hsame)
      · rw [hpatched] at hanswer
        cases hanswer
  | @scaled located fetched wanted result owner hlocates howner hdesired =>
      obtain ⟨between, hlocated, hlast⟩ := Store.Leads.append_iff.1 hleads
      obtain ⟨chosen, hchooses⟩ := exists_chooses hlocates
      obtain ⟨hscalers, hworkloads, version, hscaling⟩ := scaling_of_patched hkeyed hhook hlocates
        hchooses hlocated howner hdesired (Store.Leads.sent_iff.1 hlast) _
      exact ⟨hscalers, hworkloads, .inr ⟨rfl, chosen, fetched, _, owner, hscaling⟩⟩

end Searches

/-! ## Reports -/

/-- What comes of a report on a scaler that the server has as it was read. -/
inductive Announced (scaler : Scaler) (condition : Condition) (before after : Server) :
    Except ApiError Scaler → Prop
  | refused (error : ApiError) (hsame : SameObjects after before) :
      Announced scaler condition before after (.error error)
  | written (version : Option String) (hworkloads : after.workloads = before.workloads)
      (hdeployments : after.deployments = before.deployments)
      (hscalers : after.scalers = insert scaler.metadata.key
        ((scaler.reporting condition).withVersion version) before.scalers) :
      Announced scaler condition before after
        (.ok ((scaler.reporting condition).withVersion version))

theorem announced_of_sent {scaler : Scaler} {condition : Condition} {before after : Server}
    {answer : Except ApiError Scaler}
    (hstored : Entries.get? before.scalers scaler.metadata.key = some scaler)
    (hsent : store.send (.updateStatus (scaler.reporting condition)) before =
      (.statusUpdated answer, after)) : Announced scaler condition before after answer := by
  have hsame := sameObjects_receive .updateStatus scaler.metadata.key before
  have hanswered := before.updateStatus_answered (scaler.reporting condition)
  rw [updateStatus_of_send hsent] at hanswered
  cases hanswered with
  | refused error => exact .refused error hsame
  | @accepted current hcurrent hmay =>
      obtain rfl : current = scaler := by
        rw [receive_scalers] at hcurrent
        exact Option.some.inj (hcurrent.symm.trans hstored)
      refine .written _ hsame.workloads hsame.deployments ?_
      exact congrArg (insert _ _) hsame.scalers

section Announcements

variable {scaler : Scaler} {condition : Condition} {before after : Server}
  {answer : Except ApiError Scaler}

/-- A report leaves workloads, Deployments and the other scalers as they are. -/
theorem Announced.frame (h : Announced scaler condition before after answer) :
    after.workloads = before.workloads ∧ after.deployments = before.deployments ∧
      ∀ other, other ≠ scaler.metadata.key →
        Entries.get? after.scalers other = Entries.get? before.scalers other := by
  cases h with
  | refused error hsame =>
      exact ⟨hsame.workloads, hsame.deployments, fun other _ => by rw [hsame.scalers]⟩
  | written version hworkloads hdeployments hscalers =>
      refine ⟨hworkloads, hdeployments, fun other hother => ?_⟩
      rw [hscalers, get?_insert, if_neg fun hkey => hother hkey.symm]

/-- A report that succeeds is what is stored. -/
theorem Announced.stored {stored : Scaler}
    (h : Announced scaler condition before after (.ok stored)) :
    Entries.get? after.scalers scaler.metadata.key = some stored ∧
      ∃ version, stored = (scaler.reporting condition).withVersion version := by
  cases h with
  | written version hworkloads hdeployments hscalers =>
      refine ⟨?_, version, rfl⟩
      rw [hscalers, get?_insert, if_pos rfl]

/-- A report that fails leaves the scaler as it is. -/
theorem Announced.kept {error : ApiError}
    (h : Announced scaler condition before after (.error error)) :
    after.scalers = before.scalers := by
  cases h with
  | refused _ hsame => exact hsame.scalers

end Announcements

/-! ## The effect -/

/-- What a reconcile with the given calls does to a server. -/
structure Effect (config : Config) (key : Key) (calls : List StoreCall) (before after : Server)
    (result : Except ReconcileError Outcome) : Prop where
  workloads : after.workloads = before.workloads
  otherScalers : ∀ other, other ≠ key →
    Entries.get? after.scalers other = Entries.get? before.scalers other
  /-- The scaler stays as it is, apart from its `synced` condition and its resource version. -/
  scaler : Entries.get? after.scalers key = Entries.get? before.scalers key ∨
    ∃ old new, Entries.get? before.scalers key = some old ∧
      Entries.get? after.scalers key = some new ∧ old.Rereported new
  /-- The first candidate that could be read is scaled, or no Deployment changes at all. -/
  deployments : after.deployments = before.deployments ∨
    ∃ scaler searched report chosen fetched changed owner,
      scaler.metadata.key = key ∧ calls = .gotScaler key (.ok scaler) :: searched ++ [report] ∧
      Scaling config scaler searched before.deployments after.deployments chosen fetched changed
        owner
  requeued : ∀ seconds, result = .ok (.requeueAfter seconds) →
    after.deployments = before.deployments
  /-- A success is only written when the Deployment is scaled and owned. -/
  succeeded : ∀ written stored condition,
    .sent (.updateStatus written) (.statusUpdated (.ok stored)) ∈ calls →
    stored.synced? = some condition → condition.status = .success →
    Entries.get? after.scalers key = some stored ∧
      ∃ scaler searched report chosen fetched changed owner,
        scaler.metadata.key = key ∧ calls = .gotScaler key (.ok scaler) :: searched ++ [report] ∧
        Scaling config scaler searched before.deployments after.deployments chosen fetched changed
          owner

/-- The only status that is written is the report, and it is a success only when a Deployment was
scaled. -/
theorem scaled_of_success {now : Time} {config : Config} {scaler : Scaler} {key : Key}
    {searched : List StoreCall} {finding : Finding} {answer : Except ApiError Scaler}
    {between after : Server} (hcourse : Course config scaler searched finding)
    (hannounced : Announced scaler (finding.condition config now) between after answer)
    {written stored : Scaler} {condition : Condition}
    (hmem : .sent (.updateStatus written) (.statusUpdated (.ok stored)) ∈
      .gotScaler key (.ok scaler) :: searched ++
        [.sent (.updateStatus (scaler.reporting (finding.condition config now)))
          (.statusUpdated answer)])
    (hsynced : stored.synced? = some condition) (hsuccess : condition.status = .success) :
    Entries.get? after.scalers scaler.metadata.key = some stored ∧ finding = .scaled := by
  have hlast : StoreCall.sent (.updateStatus written) (.statusUpdated (.ok stored)) =
      .sent (.updateStatus (scaler.reporting (finding.condition config now)))
        (.statusUpdated answer) := by
    rcases List.mem_cons.1 hmem with hfirst | hmem
    · cases hfirst
    · rcases List.mem_append.1 hmem with hearlier | hlast
      · exact absurd ⟨written, _, rfl⟩ (not_writesStatus_of_course hcourse _ hearlier)
      · exact List.mem_singleton.1 hlast
  cases hlast
  obtain ⟨hnew, version, rfl⟩ := hannounced.stored
  obtain ⟨found, hfound, hstatus, -, -⟩ := finding.synced?_reporting config now scaler
  have hsame : found = condition := Option.some.inj (hfound.symm.trans hsynced)
  refine ⟨hnew, ?_⟩
  rw [← finding.status_eq_success_iff, ← hstatus, hsame, hsuccess]

/-- A course together with its report has the effect. -/
theorem effect_of_searched {now : Time} {config : Config} {scaler : Scaler}
    {searched : List StoreCall} {finding : Finding} {answer : Except ApiError Scaler}
    {server received between after : Server} (hreceived : SameObjects received server)
    (hstored : Entries.get? server.scalers scaler.metadata.key = some scaler)
    (hcourse : Course config scaler searched finding)
    (hsearched : Searched config scaler searched received between finding)
    (hannounced : Announced scaler (finding.condition config now) between after answer) :
    Effect config scaler.metadata.key
      (.gotScaler scaler.metadata.key (.ok scaler) :: searched ++
        [.sent (.updateStatus (scaler.reporting (finding.condition config now)))
          (.statusUpdated answer)])
      server after ((finding.conclude config answer).mapError .stepFailed) := by
  obtain ⟨hworkloads, hdeployments, hothers⟩ := hannounced.frame
  have hscalers : between.scalers = server.scalers := hsearched.scalers.trans hreceived.scalers
  have hunchanged (h : between.deployments = received.deployments) :
      after.deployments = server.deployments :=
    hdeployments.trans (h.trans hreceived.deployments)
  have hscaling {chosen : TypedReference} {fetched changed : Deployment} {owner : OwnerReference}
      (h : Scaling config scaler searched received.deployments between.deployments chosen fetched
        changed owner) :
      Scaling config scaler searched server.deployments after.deployments chosen fetched changed
        owner := by
    rw [hdeployments, ← hreceived.deployments]
    exact h
  refine ⟨?_, fun other hother => ?_, ?_, ?_, fun seconds hresult => ?_, ?_⟩
  · exact hworkloads.trans (hsearched.workloads.trans hreceived.workloads)
  · rw [hothers other hother, hscalers]
  · cases answer with
    | error error =>
        refine .inl ?_
        rw [hannounced.kept, hscalers]
    | ok stored =>
        obtain ⟨hnew, version, rfl⟩ := hannounced.stored
        exact .inr ⟨scaler, _, hstored, hnew, scaler.rereported_reporting rfl version⟩
  · rcases hsearched.deployments with ⟨-, hkept⟩ | ⟨-, chosen, fetched, changed, owner, hscaled⟩
    · exact .inl (hunchanged hkept)
    · exact .inr ⟨scaler, searched, _, chosen, fetched, changed, owner, rfl, rfl, hscaling hscaled⟩
  · rcases hsearched.deployments with ⟨-, hkept⟩ | ⟨rfl, -⟩
    · exact hunchanged hkept
    · cases answer with
      | ok stored => cases hresult
      | error error =>
          rw [Finding.conclude_error] at hresult
          split at hresult <;> cases hresult
  · intro written stored condition hmem hsynced hsuccess
    obtain ⟨hnew, hscaled⟩ := scaled_of_success hcourse hannounced hmem hsynced hsuccess
    refine ⟨hnew, ?_⟩
    rcases hsearched.deployments with ⟨hother, -⟩ | ⟨-, chosen, fetched, changed, owner, hfound⟩
    · exact absurd hscaled hother
    · exact ⟨scaler, searched, _, chosen, fetched, changed, owner, rfl, rfl, hscaling hfound⟩

/-- A reconcile on a reachable server without another writer has its effect and no other one,
whatever faults are pending. -/
theorem reconcile_effect {server : Server} (hreachable : server.Reachable)
    (hhook : server.beforePatch = none) (now : Time) (config : Config) (key : Key) :
    Effect config key (calls now config store key server) server
      (reconcile now config store key server).2 (reconcile now config store key server).1 := by
  have hkeyed := hreachable.keyed
  have hget : store.getScaler key server = _ := server.getScaler_eq key
  have hreceived := sameObjects_receive .getScaler key server
  cases hread : (store.getScaler key server).1 with
  | error error =>
      rw [reconcile_of_error now config store hread, calls_of_error now config store hread, hget]
      refine ⟨hreceived.workloads, fun other _ => ?_, .inl ?_, .inl hreceived.deployments,
        fun _ _ => hreceived.deployments, fun written stored condition hmem => ?_⟩
      · rw [hreceived.scalers]
      · rw [hreceived.scalers]
      · cases List.mem_singleton.1 hmem
  | ok scaler =>
      obtain ⟨searched, finding, answer, hcourse, hcalls, hresult⟩ :=
        reconcile_course now config store hread
      have hstored : Entries.get? server.scalers key = some scaler := by
        rw [hget] at hread
        exact get?_of_answerOf hread
      obtain rfl : scaler.metadata.key = key := hkeyed.scalers _ _ hstored
      have hleads := reconcile_leads now config store scaler.metadata.key server
      rw [hcalls, List.cons_append] at hleads
      obtain ⟨between, hsearch, hreport⟩ := Store.Leads.append_iff.1 hleads.of_gotScaler
      rw [hget] at hsearch
      have hsearched := course_searched (hkeyed.of_sameObjects hreceived)
        (hreceived.beforePatch.trans hhook) hcourse hsearch
      have hpresent : Entries.get? between.scalers scaler.metadata.key = some scaler := by
        rw [hsearched.scalers, hreceived.scalers]
        exact hstored
      have hannounced := announced_of_sent hpresent (Store.Leads.sent_iff.1 hreport)
      rw [hcalls, hresult]
      exact effect_of_searched hreceived hstored hcourse hsearched hannounced

theorem reconcile_effect_sampleServer :
    Effect {} sampleKey (calls default {} store sampleKey sampleServer) sampleServer
      (reconcile default {} store sampleKey sampleServer).2
      (reconcile default {} store sampleKey sampleServer).1 :=
  reconcile_effect reachable_sampleServer rfl default {} sampleKey

end Reconcile

end ReplicaKeeper
