import ReplicaKeeper.Proofs.Server.Faults

/-!
# What a reconcile comes to without faults

On a server without faults and without another writer the objects decide what a reconcile comes to:
it reads the first candidate that is stored, `Server.target?`, and what it finds out and makes of
that Deployment can be told beforehand, `Server.outlook` and `prospect`.  Every course that such a
server answers ends so, `foreseen_of_course`.
-/

set_option autoImplicit false

namespace ReplicaKeeper

open Entries

namespace Reconcile

/-- What comes of a Deployment under a key that was read, and what the Deployment becomes, apart
from its version. -/
def prospect (config : Config) (scaler : Scaler) (key : Key) (fetched : Deployment) :
    Finding × Deployment :=
  match scaler.ownerReference? with
  | none => (.ownerIncomplete, fetched)
  | some owner =>
      match desired scaler owner fetched with
      | .error error => (.ownerRefused error, fetched)
      | .ok wanted =>
          match Server.patched key (patchTo config fetched wanted) fetched with
          | .error error => (.patchRefused error, fetched)
          | .ok merged => (.scaled, merged)

end Reconcile

open Reconcile

namespace Server

/-! ## Looking ahead -/

/-- The keys of the Deployments that the workload of a scaler manages, if the workload is the
incarnation that the scaler points to. -/
def candidateKeys (config : Config) (scaler : Scaler) (server : Server) : List Key :=
  match get? server.workloads (workloadKey scaler) with
  | none => []
  | some workload =>
      if isIntended scaler workload then (candidatesOf config workload).map (candidateKey scaler)
      else []

/-- The key of the first candidate that is stored. -/
def targetOf? (config : Config) (scaler : Scaler) (server : Server) : Option Key :=
  (server.candidateKeys config scaler).find? fun key => contains server.deployments key

/-- The key of the Deployment that a reconcile reads if nothing goes wrong. -/
def target? (config : Config) (key : Key) (server : Server) : Option Key :=
  (get? server.scalers key).bind fun scaler => server.targetOf? config scaler

/-- What a reconcile finds out if nothing goes wrong on the way. -/
def outlook (config : Config) (scaler : Scaler) (server : Server) : Finding :=
  match get? server.workloads (workloadKey scaler) with
  | none => .workloadUnreadable .notFound
  | some workload =>
      if isIntended scaler workload then
        match candidatesOf config workload with
        | [] => .noCandidate
        | _ :: _ =>
            match server.targetOf? config scaler with
            | none => .candidatesUnreadable .notFound
            | some key =>
                match get? server.deployments key with
                | none => .candidatesUnreadable .notFound
                | some fetched => (prospect config scaler key fetched).1
      else .otherWorkload

section Targets

variable {config : Config} {scaler : Scaler} {server : Server}

/-- Only stored candidates are targets. -/
theorem targetOf?_eq_none (h : ∀ key ∈ server.candidateKeys config scaler,
    get? server.deployments key = none) : server.targetOf? config scaler = none := by
  refine List.find?_eq_none.2 fun key hmem => ?_
  rw [contains, h key hmem]
  exact Bool.false_ne_true

/-- A stored candidate is the target when none before it is stored. -/
theorem targetOf?_eq_some (front rest : List Key) {key : Key} {fetched : Deployment}
    (hkeys : server.candidateKeys config scaler = front ++ key :: rest)
    (hfront : ∀ other ∈ front, get? server.deployments other = none)
    (hfetched : get? server.deployments key = some fetched) :
    server.targetOf? config scaler = some key := by
  refine List.find?_eq_some_iff_append.2 ⟨?_, front, rest, hkeys, fun other hmem => ?_⟩
  · rw [contains, hfetched]
    rfl
  · rw [contains, hfront other hmem]
    rfl

/-- Something is stored under the target. -/
theorem exists_of_targetOf? {key : Key} (h : server.targetOf? config scaler = some key) :
    ∃ fetched, get? server.deployments key = some fetched := by
  have hstored : contains server.deployments key = true := List.find?_some h
  exact Option.isSome_iff_exists.1 hstored

end Targets

section Workloads

variable {config : Config} {scaler : Scaler} {server : Server} {workload : Workload}

theorem candidateKeys_of_not_pointsTo
    (hworkload : get? server.workloads (workloadKey scaler) = some workload)
    (hpoints : ¬ PointsTo scaler workload) : server.candidateKeys config scaler = [] := by
  rw [candidateKeys, hworkload]
  exact if_neg (mt (isIntended_iff scaler workload).1 hpoints)

theorem candidateKeys_of_pointsTo
    (hworkload : get? server.workloads (workloadKey scaler) = some workload)
    (hpoints : PointsTo scaler workload) :
    server.candidateKeys config scaler =
      (candidatesOf config workload).map (candidateKey scaler) := by
  rw [candidateKeys, hworkload]
  exact if_pos ((isIntended_iff scaler workload).2 hpoints)

/-- With a target the outlook is that of the Deployment there. -/
theorem outlook_of_target {key : Key} {fetched : Deployment}
    (hworkload : get? server.workloads (workloadKey scaler) = some workload)
    (hpoints : PointsTo scaler workload) (htarget : server.targetOf? config scaler = some key)
    (hfetched : get? server.deployments key = some fetched) :
    server.outlook config scaler = (prospect config scaler key fetched).1 := by
  rw [outlook, hworkload]
  dsimp only
  rw [if_pos ((isIntended_iff scaler workload).2 hpoints), htarget]
  dsimp only
  rw [hfetched]
  cases hcandidates : candidatesOf config workload with
  | nil =>
      rw [targetOf?, candidateKeys_of_pointsTo hworkload hpoints, hcandidates] at htarget
      cases htarget
  | cons first others => rfl

/-- Without a target none of the candidates can be read. -/
theorem outlook_of_no_target
    (hworkload : get? server.workloads (workloadKey scaler) = some workload)
    (hpoints : PointsTo scaler workload) (hsome : candidatesOf config workload ≠ [])
    (hnone : server.targetOf? config scaler = none) :
    server.outlook config scaler = .candidatesUnreadable .notFound := by
  rw [outlook, hworkload]
  dsimp only
  rw [if_pos ((isIntended_iff scaler workload).2 hpoints), hnone]
  cases hcandidates : candidatesOf config workload with
  | nil => exact absurd hcandidates hsome
  | cons first others => rfl

end Workloads

/-! ## Answers without faults -/

theorem find_eq_error_iff {α : Type} (objects : Entries Key α) (key : Key) (error : ApiError) :
    find objects key = .error error ↔ get? objects key = none ∧ error = .notFound := by
  unfold find
  cases get? objects key <;> simp [eq_comm]

section Answers

variable {scaler : Scaler} {server last : Server} {calls : List StoreCall}

theorem Undisturbed.of_askedWorkload (h : server.Undisturbed) {answer : Except ApiError Workload}
    (hleads : store.Leads server (askedWorkload scaler answer :: calls) last) :
    find server.workloads (workloadKey scaler) = answer ∧
      store.Leads (server.noted [⟨.getWorkload, workloadKey scaler⟩]) calls last := by
  obtain ⟨hanswer, hrest⟩ := hleads.of_sent
  rw [send_getWorkload, h.receive] at hanswer hrest
  exact ⟨(Response.workload.inj hanswer).symm, hrest⟩

theorem Undisturbed.of_askedCandidate (h : server.Undisturbed) {candidate : TypedReference}
    {answer : Except ApiError Deployment}
    (hleads : store.Leads server (askedCandidate scaler candidate answer :: calls) last) :
    find server.deployments (candidateKey scaler candidate) = answer ∧
      store.Leads (server.noted [⟨.getDeployment, candidateKey scaler candidate⟩]) calls last := by
  obtain ⟨hanswer, hrest⟩ := hleads.of_sent
  rw [send_getDeployment, h.receive] at hanswer hrest
  exact ⟨(Response.deployment.inj hanswer).symm, hrest⟩

/-- Candidates that cannot be read are not there. -/
theorem Undisturbed.of_passedOver (h : server.Undisturbed)
    {failed : List (TypedReference × ApiError)}
    (hleads : store.Leads server (passedOver scaler failed ++ calls) last) :
    (∀ entry ∈ failed, get? server.deployments (candidateKey scaler entry.1) = none) ∧
      ∃ records, store.Leads (server.noted records) calls last := by
  induction failed generalizing server with
  | nil =>
      refine ⟨fun entry hmem => absurd hmem List.not_mem_nil, [], ?_⟩
      rw [noted_nil]
      exact hleads
  | cons entry failed ih =>
      obtain ⟨hfound, hrest⟩ := h.of_askedCandidate hleads
      obtain ⟨hfailed, records, hcalls⟩ := ih (h.noted _) hrest
      rw [noted_noted] at hcalls
      refine ⟨fun other hmem => ?_, _, hcalls⟩
      rcases List.mem_cons.1 hmem with rfl | hmem
      · exact ((find_eq_error_iff _ _ _).1 hfound).1
      · exact hfailed other hmem

end Answers

end Server

namespace Reconcile

open Server

/-! ## Courses without faults -/

/-- What a course without faults comes to, and what it makes of the Deployments. -/
structure Foreseen (config : Config) (scaler : Scaler) (before after : Server) (finding : Finding) :
    Prop where
  finding_eq : finding = before.outlook config scaler
  others : ∀ key, before.targetOf? config scaler ≠ some key →
    Entries.get? after.deployments key = Entries.get? before.deployments key
  target : ∀ key fetched, before.targetOf? config scaler = some key →
    Entries.get? before.deployments key = some fetched →
    ∃ version, Entries.get? after.deployments key =
      some ((prospect config scaler key fetched).2.withVersion version)

section Courses

variable {config : Config} {scaler : Scaler} {server after : Server} {calls : List StoreCall}

/-- Without a target all Deployments stay. -/
theorem Foreseen.of_no_target {finding : Finding}
    (hfinding : finding = server.outlook config scaler)
    (hnone : server.targetOf? config scaler = none)
    (hkept : after.deployments = server.deployments) :
    Foreseen config scaler server after finding where
  finding_eq := hfinding
  others key _ := by rw [hkept]
  target key fetched htarget := by
    rw [hnone] at htarget
    cases htarget

/-- A Deployment was read that is the target. -/
structure Located (config : Config) (scaler : Scaler) (server between : Server) (key : Key)
    (fetched : Deployment) : Prop where
  outlook_eq : server.outlook config scaler = (prospect config scaler key fetched).1
  target_eq : server.targetOf? config scaler = some key
  fetched_eq : Entries.get? server.deployments key = some fetched
  targetKey_eq : targetKey scaler fetched = key
  between_eq : ∃ records, between = server.noted records

theorem located_of_locates (h : server.Undisturbed) (hkeyed : server.Keyed) {fetched : Deployment}
    (hlocates : Locates config scaler calls fetched) (hleads : store.Leads server calls after) :
    ∃ key, Located config scaler server after key fetched := by
  cases hlocates with
  | @read workload failed chosen others _ hpoints hcandidates =>
      rw [List.cons_append] at hleads
      obtain ⟨hworkload, hsearch⟩ := h.of_askedWorkload hleads
      rw [find_eq_ok_iff] at hworkload
      obtain ⟨hfailed, records, hlast⟩ := (h.noted _).of_passedOver hsearch
      obtain ⟨hfetched, hend⟩ := ((h.noted _).noted _).of_askedCandidate hlast
      rw [find_eq_ok_iff] at hfetched
      cases hend
      have htarget : server.targetOf? config scaler = some (candidateKey scaler chosen) := by
        refine targetOf?_eq_some (failed.map fun entry => candidateKey scaler entry.1)
          (others.map (candidateKey scaler)) ?_ (fun other hmem => ?_) hfetched
        · rw [candidateKeys_of_pointsTo hworkload hpoints, hcandidates]
          simp
        · obtain ⟨entry, hentry, rfl⟩ := List.mem_map.1 hmem
          exact hfailed entry hentry
      refine ⟨candidateKey scaler chosen, outlook_of_target hworkload hpoints htarget hfetched,
        htarget, hfetched, targetKey_eq_candidateKey ?_, ?_⟩
      · exact hkeyed.deployments h.beforePatch _ _ hfetched
      · exact ⟨_, by rw [noted_noted, noted_noted]⟩

/-- What becomes of the target is told by the prospect. -/
theorem Located.foreseen {key : Key} {fetched changed : Deployment} {between : Server}
    (h : Located config scaler server between key fetched) {finding : Finding}
    (hprospect : prospect config scaler key fetched = (finding, changed))
    (version : Option String)
    (hchanged : Entries.get? after.deployments key = some (changed.withVersion version))
    (hothers : ∀ other, other ≠ key →
      Entries.get? after.deployments other = Entries.get? server.deployments other) :
    Foreseen config scaler server after finding where
  finding_eq := by rw [h.outlook_eq, hprospect]
  others other hother := by
    refine hothers other fun hkey => hother ?_
    rw [h.target_eq, hkey]
  target other found htarget hfound := by
    obtain rfl := Option.some.inj (h.target_eq.symm.trans htarget)
    obtain rfl := Option.some.inj (h.fetched_eq.symm.trans hfound)
    rw [hprospect]
    exact ⟨version, hchanged⟩

/-- Without a change the Deployment keeps its version. -/
theorem Located.foreseen_of_kept {key : Key} {fetched : Deployment} {between : Server}
    (h : Located config scaler server between key fetched) {finding : Finding}
    (hprospect : prospect config scaler key fetched = (finding, fetched))
    (hkept : after.deployments = server.deployments) :
    Foreseen config scaler server after finding := by
  refine h.foreseen hprospect fetched.metadata.resourceVersion ?_ fun other _ => by rw [hkept]
  rw [hkept]
  exact h.fetched_eq

/-- The answer to the patch is told by the prospect as well. -/
theorem Located.foreseen_of_patch {key : Key} {fetched wanted : Deployment} {between : Server}
    {owner : OwnerReference} (h : server.Undisturbed)
    (hlocated : Located config scaler server between key fetched)
    (howner : scaler.ownerReference? = some owner)
    (hdesired : desired scaler owner fetched = .ok wanted) {answer : Except ApiError Deployment}
    (hsent : store.send (.patchDeployment (targetKey scaler fetched)
      (patchTo config fetched wanted)) between = (.patched answer, after)) :
    Foreseen config scaler server after (.ofPatch answer) := by
  obtain ⟨records, rfl⟩ := hlocated.between_eq
  rw [hlocated.targetKey_eq] at hsent
  have hpatch := patchDeployment_of_send hsent
  have hfetched : Entries.get? (server.noted records).deployments key = some fetched :=
    hlocated.fetched_eq
  rw [(h.noted records).patchDeployment key hfetched] at hpatch
  have hprospect : prospect config scaler key fetched =
      match patched key (patchTo config fetched wanted) fetched with
      | .error error => (.patchRefused error, fetched)
      | .ok merged => (.scaled, merged) := by
    rw [prospect, howner]
    dsimp only
    rw [hdesired]
  cases hpatched : patched key (patchTo config fetched wanted) fetched with
  | error error =>
      rw [hpatched] at hpatch hprospect
      cases hpatch
      exact hlocated.foreseen_of_kept hprospect rfl
  | ok merged =>
      rw [hpatched] at hpatch hprospect
      have hstored : Entries.get?
          ((server.noted records).noted [⟨.patchDeployment, key⟩]).deployments key =
            some fetched := hfetched
      obtain ⟨version, -, hchanged⟩ := changed_storePatched hstored merged
      cases hpatch
      exact hlocated.foreseen hprospect version hchanged.deployment hchanged.others

/-- On a server without faults every course comes to what the objects tell. -/
theorem foreseen_of_course (h : server.Undisturbed) (hkeyed : server.Keyed) {finding : Finding}
    (hcourse : Course config scaler calls finding) (hleads : store.Leads server calls after) :
    Foreseen config scaler server after finding := by
  cases hcourse with
  | workloadUnreadable error =>
      obtain ⟨hanswer, hend⟩ := h.of_askedWorkload hleads
      obtain ⟨hworkload, rfl⟩ := (find_eq_error_iff _ _ _).1 hanswer
      cases hend
      refine .of_no_target ?_ (targetOf?_eq_none ?_) rfl
      · rw [outlook, hworkload]
      · rw [candidateKeys, hworkload]
        nofun
  | otherWorkload hpoints =>
      obtain ⟨hanswer, hend⟩ := h.of_askedWorkload hleads
      rw [find_eq_ok_iff] at hanswer
      cases hend
      refine .of_no_target ?_ (targetOf?_eq_none ?_) rfl
      · rw [outlook, hanswer]
        exact (if_neg (mt (isIntended_iff scaler _).1 hpoints)).symm
      · rw [candidateKeys_of_not_pointsTo hanswer hpoints]
        nofun
  | @noCandidate workload hpoints hnone =>
      obtain ⟨hanswer, hend⟩ := h.of_askedWorkload hleads
      rw [find_eq_ok_iff] at hanswer
      cases hend
      have hcandidates := (candidatesOf_eq_nil_iff config workload).2 hnone
      refine .of_no_target ?_ (targetOf?_eq_none ?_) rfl
      · rw [outlook, hanswer]
        dsimp only
        rw [if_pos ((isIntended_iff scaler workload).2 hpoints), hcandidates]
      · rw [candidateKeys_of_pointsTo hanswer hpoints, hcandidates]
        nofun
  | @candidatesUnreadable workload failed last error hpoints hcandidates =>
      rw [List.cons_append] at hleads
      obtain ⟨hanswer, hsearch⟩ := h.of_askedWorkload hleads
      rw [find_eq_ok_iff] at hanswer
      obtain ⟨hfailed, records, hlast⟩ := (h.noted _).of_passedOver hsearch
      obtain ⟨hunread, hend⟩ := ((h.noted _).noted _).of_askedCandidate hlast
      obtain ⟨hmissing, rfl⟩ := (find_eq_error_iff _ _ _).1 hunread
      cases hend
      have hnone : server.targetOf? config scaler = none := by
        refine targetOf?_eq_none fun key hmem => ?_
        rw [candidateKeys_of_pointsTo hanswer hpoints, hcandidates, List.map_append,
          List.map_map] at hmem
        rcases List.mem_append.1 hmem with hearlier | hlast
        · obtain ⟨entry, hentry, rfl⟩ := List.mem_map.1 hearlier
          exact hfailed entry hentry
        · obtain rfl := List.mem_singleton.1 hlast
          exact hmissing
      refine .of_no_target (outlook_of_no_target hanswer hpoints ?_ hnone).symm hnone rfl
      rw [hcandidates]
      exact List.append_ne_nil_of_right_ne_nil _ (List.cons_ne_nil last [])
  | ownerIncomplete hlocates howner =>
      obtain ⟨key, hlocated⟩ := located_of_locates h hkeyed hlocates hleads
      obtain ⟨records, rfl⟩ := hlocated.between_eq
      refine hlocated.foreseen_of_kept ?_ rfl
      rw [prospect, scaler.ownerReference?_eq_none_iff.2 howner]
  | ownerRefused hlocates howner hrefuses =>
      obtain ⟨key, hlocated⟩ := located_of_locates h hkeyed hlocates hleads
      obtain ⟨records, rfl⟩ := hlocated.between_eq
      refine hlocated.foreseen_of_kept ?_ rfl
      rw [prospect, howner]
      dsimp only
      rw [(desired_eq_error_iff scaler _ _ _).2 hrefuses]
  | patchRefused error hlocates howner hdesired | scaled hlocates howner hdesired =>
      obtain ⟨between, hlocated, hlast⟩ := Store.Leads.append_iff.1 hleads
      obtain ⟨key, hlocated⟩ := located_of_locates h hkeyed hlocates hlocated
      exact hlocated.foreseen_of_patch h howner hdesired (Store.Leads.sent_iff.1 hlast)

end Courses

/-! ## Reconciles without faults -/

/-- What a reconcile finds out if nothing goes wrong; without its scaler it finds out nothing. -/
def verdict? (config : Config) (key : Key) (server : Server) : Option Finding :=
  (Entries.get? server.scalers key).map fun scaler => server.outlook config scaler

/-- What a reconcile without faults does to the objects. -/
structure Foretold (now : Time) (config : Config) (key : Key) (before after : Server)
    (result : Except ReconcileError Outcome) : Prop where
  result_eq : result = .ok ((verdict? config key before).elim .done (Finding.outcome config))
  undisturbed : after.Undisturbed
  workloads : after.workloads = before.workloads
  otherScalers : ∀ other, other ≠ key →
    Entries.get? after.scalers other = Entries.get? before.scalers other
  missing : Entries.get? before.scalers key = none → Entries.get? after.scalers key = none
  reported : ∀ scaler, Entries.get? before.scalers key = some scaler →
    ∃ version, Entries.get? after.scalers key =
      some ((scaler.reporting ((before.outlook config scaler).condition config now)).withVersion
        version)
  otherDeployments : ∀ other, before.target? config key ≠ some other →
    Entries.get? after.deployments other = Entries.get? before.deployments other
  target : ∀ scaler other fetched, Entries.get? before.scalers key = some scaler →
    before.target? config key = some other →
    Entries.get? before.deployments other = some fetched →
    ∃ version, Entries.get? after.deployments other =
      some ((prospect config scaler other fetched).2.withVersion version)

/-- How a trail without faults ends: what was found out is written to the scaler. -/
structure Concluded (now : Time) (config : Config) (scaler : Scaler) (searched : List StoreCall)
    (finding : Finding) (answer : Except ApiError Scaler) (before after : Server) : Prop where
  finding_eq : finding = before.outlook config scaler
  /-- The report leaves the Deployments as the search left them. -/
  deployments : ∃ between,
    store.Leads (before.noted [⟨.getScaler, scaler.metadata.key⟩]) searched between ∧
      after.deployments = between.deployments
  written : ∃ version,
    answer = .ok ((scaler.reporting (finding.condition config now)).withVersion version) ∧
      Entries.get? after.scalers scaler.metadata.key =
        some ((scaler.reporting (finding.condition config now)).withVersion version)

section Reconciles

variable {server after : Server}

/-- A trail without faults ends with a report that is written, and it does what can be told
beforehand. -/
theorem foretold_of_trail (h : server.Undisturbed) (hkeyed : server.Keyed) {now : Time}
    {config : Config} {scaler : Scaler} {searched : List StoreCall} {finding : Finding}
    {answer : Except ApiError Scaler}
    (hstored : Entries.get? server.scalers scaler.metadata.key = some scaler)
    (hcourse : Course config scaler searched finding)
    (hleads : store.Leads server
      (.gotScaler scaler.metadata.key (.ok scaler) :: searched ++
        [.sent (.updateStatus (scaler.reporting (finding.condition config now)))
          (.statusUpdated answer)]) after) :
    Concluded now config scaler searched finding answer server after ∧
      Foretold now config scaler.metadata.key server after
        ((finding.conclude config answer).mapError .stepFailed) := by
  have hread := hleads.of_gotScaler
  rw [show store.getScaler scaler.metadata.key server = _ from
    h.getScaler scaler.metadata.key] at hread
  obtain ⟨between, hsearch, hreport⟩ := Store.Leads.append_iff.1 hread
  have hnoted := h.noted [⟨.getScaler, scaler.metadata.key⟩]
  have hnotedKeyed := hkeyed.noted [⟨.getScaler, scaler.metadata.key⟩]
  have hforeseen := foreseen_of_course hnoted hnotedKeyed hcourse hsearch
  have hsearched := course_searched hnotedKeyed hnoted.beforePatch hcourse hsearch
  have hbetween : between.Undisturbed := hnoted.of_leads hsearch
  have hpresent : Entries.get? between.scalers scaler.metadata.key = some scaler := by
    rw [hsearched.scalers]
    exact hstored
  have hsent := Store.Leads.sent_iff.1 hreport
  have hannounced := announced_of_sent hpresent hsent
  have hanswer := (updateStatus_of_send hsent).symm.trans
    (hbetween.report hpresent (finding.condition config now))
  obtain ⟨rfl, -⟩ := Prod.mk.inj hanswer
  obtain ⟨hwritten, version, hreported⟩ := hannounced.stored
  rw [hreported] at hwritten
  obtain ⟨hworkloads, hdeployments, hscalers⟩ := hannounced.frame
  obtain rfl : finding = server.outlook config scaler := hforeseen.finding_eq
  have htarget : server.target? config scaler.metadata.key = server.targetOf? config scaler := by
    rw [target?, hstored]
    rfl
  refine ⟨⟨rfl, ⟨between, hsearch, hdeployments⟩, version, congrArg Except.ok hreported, hwritten⟩,
    ⟨?_, h.of_leads hleads, hworkloads.trans hsearched.workloads,
    fun other hother => ?_, fun hmissing => ?_, fun found hfound => ?_, fun other hother => ?_,
    fun found other fetched hfound hother hfetched => ?_⟩⟩
  · rw [verdict?, hstored]
    rfl
  · rw [hscalers other hother, hsearched.scalers]
    rfl
  · cases hstored.symm.trans hmissing
  · obtain rfl := Option.some.inj (hstored.symm.trans hfound)
    exact ⟨version, hwritten⟩
  · rw [hdeployments]
    exact hforeseen.others other (htarget ▸ hother)
  · obtain rfl := Option.some.inj (hstored.symm.trans hfound)
    rw [hdeployments]
    exact hforeseen.target other fetched (htarget ▸ hother) hfetched

/-- A reconcile on a server without faults and without another writer does what can be told
beforehand. -/
theorem reconcile_foretold (h : server.Undisturbed) (hkeyed : server.Keyed) (now : Time)
    (config : Config) (key : Key) :
    Foretold now config key server (reconcile now config store key server).2
      (reconcile now config store key server).1 := by
  cases hstored : Entries.get? server.scalers key with
  | none =>
      rw [reconcile_of_missing h hstored]
      refine ⟨?_, h.noted _, rfl, fun _ _ => rfl, fun hmissing => hmissing,
        fun scaler hscaler => ?_, fun _ _ => rfl, fun scaler _ _ hscaler => ?_⟩
      · rw [verdict?, hstored]
        rfl
      · cases hstored.symm.trans hscaler
      · cases hstored.symm.trans hscaler
  | some scaler =>
      obtain rfl : scaler.metadata.key = key := hkeyed.scalers _ _ hstored
      have hread : (store.getScaler scaler.metadata.key server).1 = .ok scaler := by
        rw [show store.getScaler scaler.metadata.key server = _ from h.getScaler _]
        exact (find_eq_ok_iff _ _ _).2 hstored
      obtain ⟨searched, finding, answer, hcourse, hcalls, hresult⟩ :=
        reconcile_course now config store hread
      have hleads := reconcile_leads now config store scaler.metadata.key server
      rw [hcalls] at hleads
      rw [hresult]
      exact (foretold_of_trail h hkeyed hstored hcourse hleads).2

end Reconciles

end Reconcile

end ReplicaKeeper
