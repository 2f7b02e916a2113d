import ReplicaKeeper.Proofs.Ownership
import ReplicaKeeper.Proofs.Reconcile.Examination
import ReplicaKeeper.Proofs.Reconcile.Recording

/-!
# What a reconcile reports, and why

`Course` lists which calls, with which answers, lead to which finding: one case for each stage that
can fail, and one for success.  Every reconcile that could read its scaler follows one of them and
then reports it, `reconcile_reports`, whatever the store answers.  The calls decide the finding,
`Course.finding_eq`, so that nothing else could have been reported.
-/

set_option autoImplicit false

namespace ReplicaKeeper

/-- A call that writes the status of a scaler. -/
def StoreCall.WritesStatus (call : StoreCall) : Prop :=
  ∃ written response, call = .sent (.updateStatus written) response

namespace Reconcile

/-! ## Courses -/

/-- The call that asks for the workload. -/
def askedWorkload (scaler : Scaler) (answer : Except ApiError Workload) : StoreCall :=
  .sent (.getWorkload (workloadKey scaler)) (.workload answer)

/-- The call that asks for a candidate. -/
def askedCandidate (scaler : Scaler) (candidate : TypedReference)
    (answer : Except ApiError Deployment) : StoreCall :=
  .sent (.getDeployment (candidateKey scaler candidate)) (.deployment answer)

/-- The calls that ask for candidates, each of which failed. -/
def passedOver (scaler : Scaler) (failed : List (TypedReference × ApiError)) : List StoreCall :=
  failed.map fun entry => askedCandidate scaler entry.1 (.error entry.2)

/-- The scaler points to the incarnation that the workload is. -/
def PointsTo (scaler : Scaler) (workload : Workload) : Prop :=
  ∃ uid, scaler.spec.workloadRef.uid = some uid ∧ workload.metadata.uid = some uid

/-- Calls that read a Deployment: the workload is the right one, and all its candidates before
failed. -/
inductive Locates (config : Config) (scaler : Scaler) : List StoreCall → Deployment → Prop
  | read {workload : Workload} {failed : List (TypedReference × ApiError)}
      {chosen : TypedReference} {others : List TypedReference} {deployment : Deployment}
      (hpoints : PointsTo scaler workload)
      (hcandidates : candidatesOf config workload = failed.map Prod.fst ++ chosen :: others) :
      Locates config scaler
        (askedWorkload scaler (.ok workload) :: passedOver scaler failed ++
          [askedCandidate scaler chosen (.ok deployment)])
        deployment

/-- The calls up to the first stage that fails, and what they come to. -/
inductive Course (config : Config) (scaler : Scaler) : List StoreCall → Finding → Prop
  | workloadUnreadable (error : ApiError) :
      Course config scaler [askedWorkload scaler (.error error)] (.workloadUnreadable error)
  | otherWorkload {workload : Workload} (hpoints : ¬ PointsTo scaler workload) :
      Course config scaler [askedWorkload scaler (.ok workload)] .otherWorkload
  | noCandidate {workload : Workload} (hpoints : PointsTo scaler workload)
      (hnone : ∀ resource ∈ workload.managedResources,
        resource.kind ≠ some config.deploymentKind) :
      Course config scaler [askedWorkload scaler (.ok workload)] .noCandidate
  | candidatesUnreadable {workload : Workload} {failed : List (TypedReference × ApiError)}
      {last : TypedReference} {error : ApiError} (hpoints : PointsTo scaler workload)
      (hcandidates : candidatesOf config workload = failed.map Prod.fst ++ [last]) :
      Course config scaler
        (askedWorkload scaler (.ok workload) :: passedOver scaler failed ++
          [askedCandidate scaler last (.error error)])
        (.candidatesUnreadable error)
  | ownerIncomplete {calls : List StoreCall} {deployment : Deployment}
      (hlocates : Locates config scaler calls deployment)
      (howner : scaler.metadata.name = none ∨ scaler.metadata.uid = none) :
      Course config scaler calls .ownerIncomplete
  | ownerRefused {calls : List StoreCall} {deployment : Deployment} {owner : OwnerReference}
      {error : OwnershipError} (hlocates : Locates config scaler calls deployment)
      (howner : scaler.ownerReference? = some owner)
      (hrefuses : owner.Refuses deployment.metadata.owners error) :
      Course config scaler calls (.ownerRefused error)
  | patchRefused {calls : List StoreCall} {deployment wanted : Deployment} {owner : OwnerReference}
      (error : ApiError) (hlocates : Locates config scaler calls deployment)
      (howner : scaler.ownerReference? = some owner)
      (hdesired : desired scaler owner deployment = .ok wanted) :
      Course config scaler
        (calls ++ [.sent (.patchDeployment (targetKey scaler deployment)
          (patchTo config deployment wanted)) (.patched (.error error))])
        (.patchRefused error)
  | scaled {calls : List StoreCall} {deployment wanted patched : Deployment}
      {owner : OwnerReference} (hlocates : Locates config scaler calls deployment)
      (howner : scaler.ownerReference? = some owner)
      (hdesired : desired scaler owner deployment = .ok wanted) :
      Course config scaler
        (calls ++ [.sent (.patchDeployment (targetKey scaler deployment)
          (patchTo config deployment wanted)) (.patched (.ok patched))])
        .scaled

/-! ## Every examination follows a course -/

section Courses

variable {σ : Type} (config : Config) (store : Store σ) (scaler : Scaler)

theorem desired_eq_error_iff (owner : OwnerReference) (deployment : Deployment)
    (error : OwnershipError) :
    desired scaler owner deployment = .error error ↔
      owner.Refuses deployment.metadata.owners error := by
  rw [← deployment.withOwner_eq_error_iff]
  unfold desired
  cases deployment.withOwner owner with
  | error found => simp [Except.map]
  | ok owned => simp [Except.map]

/-- The candidates that a search asked for: all but the last one failed, and the last one gave the
answer.  When it failed as well it is the last of all. -/
theorem readFirst_recording (first : TypedReference) (others : List TypedReference) (world : σ)
    (before : List StoreCall) :
    let read := readFirst store.recording scaler first others (world, before)
    ∃ failed chosen rest, first :: others = failed.map Prod.fst ++ chosen :: rest ∧
      read.2.2 = before ++ (passedOver scaler failed ++ [askedCandidate scaler chosen read.1]) ∧
      ∀ error, read.1 = .error error → rest = [] := by
  induction others generalizing first world before with
  | nil => exact ⟨[], first, [], rfl, rfl, fun _ _ => rfl⟩
  | cons next others ih =>
      rw [readFirst, Store.getDeployment_recording]
      generalize store.getDeployment (candidateKey scaler first) world = answered
      obtain ⟨answer, after⟩ := answered
      cases answer with
      | ok deployment => exact ⟨[], first, next :: others, rfl, rfl, by simp⟩
      | error error =>
          obtain ⟨failed, chosen, rest, hsplit, hcalls, hrest⟩ := ih next after
            (before ++ [askedCandidate scaler first (.error error)])
          refine ⟨(first, error) :: failed, chosen, rest, ?_, ?_, hrest⟩
          · rw [hsplit]
            rfl
          · rw [List.append_assoc] at hcalls
            exact hcalls

/-- From a Deployment that was read, the owner and the answer to the patch decide. -/
theorem bring_course {located : List StoreCall} {deployment : Deployment}
    (hlocates : Locates config scaler located deployment) (world : σ) (before : List StoreCall) :
    let found := bring config store.recording scaler deployment (world, before ++ located)
    ∃ searched, Course config scaler searched found.1 ∧ found.2.2 = before ++ searched := by
  unfold bring
  cases howner : scaler.ownerReference? with
  | none =>
      exact ⟨located, .ownerIncomplete hlocates (scaler.ownerReference?_eq_none_iff.1 howner), rfl⟩
  | some owner =>
      dsimp only
      cases hdesired : desired scaler owner deployment with
      | error error =>
          have hrefuses := (desired_eq_error_iff scaler owner deployment error).1 hdesired
          exact ⟨located, .ownerRefused hlocates howner hrefuses, rfl⟩
      | ok wanted =>
          dsimp only
          rw [Store.patchDeployment_recording]
          cases (store.patchDeployment (targetKey scaler deployment)
              (patchTo config deployment wanted) world).1 with
          | ok patched =>
              exact ⟨_, .scaled hlocates howner hdesired, List.append_assoc _ _ _⟩
          | error error =>
              exact ⟨_, .patchRefused error hlocates howner hdesired, List.append_assoc _ _ _⟩

theorem search_course {workload : Workload} {first : TypedReference} {others : List TypedReference}
    (hpoints : PointsTo scaler workload)
    (hcandidates : candidatesOf config workload = first :: others) (world : σ)
    (before : List StoreCall) :
    let found := search config store.recording scaler first others
      (world, before ++ [askedWorkload scaler (.ok workload)])
    ∃ searched, Course config scaler searched found.1 ∧ found.2.2 = before ++ searched := by
  obtain ⟨failed, chosen, rest, hsplit, hcalls, hrest⟩ := readFirst_recording store scaler first
    others world (before ++ [askedWorkload scaler (.ok workload)])
  rw [hsplit] at hcandidates
  unfold search
  generalize readFirst store.recording scaler first others _ = read at hcalls hrest ⊢
  obtain ⟨answer, after, calls⟩ := read
  dsimp only at hcalls hrest ⊢
  subst hcalls
  rw [List.append_assoc]
  cases answer with
  | error error =>
      obtain rfl := hrest error rfl
      exact ⟨_, .candidatesUnreadable hpoints hcandidates, rfl⟩
  | ok deployment => exact bring_course config store scaler (.read hpoints hcandidates) after before

/-- Every examination follows a course to its finding, and makes no other calls. -/
theorem examine_course (world : σ) (before : List StoreCall) :
    let found := examine config store.recording scaler (world, before)
    ∃ searched, Course config scaler searched found.1 ∧ found.2.2 = before ++ searched := by
  unfold examine
  rw [Store.getWorkload_recording]
  dsimp only
  cases (store.getWorkload (workloadKey scaler) world).1 with
  | error error => exact ⟨_, .workloadUnreadable error, rfl⟩
  | ok workload =>
      unfold resolve
      dsimp only
      by_cases hidentity : isIntended scaler workload = true
      · have hpoints : PointsTo scaler workload := (isIntended_iff scaler workload).1 hidentity
        rw [if_pos hidentity]
        cases hcandidates : candidatesOf config workload with
        | nil =>
            have hnone := (candidatesOf_eq_nil_iff config workload).1 hcandidates
            exact ⟨_, .noCandidate hpoints hnone, rfl⟩
        | cons first others => exact search_course config store scaler hpoints hcandidates _ before
      · rw [if_neg hidentity]
        refine ⟨_, .otherWorkload fun hpoints => ?_, rfl⟩
        exact hidentity ((isIntended_iff scaler workload).2 hpoints)

end Courses

/-! ## The calls decide the finding -/

/-- The store that gives the answers of some calls once more, in their order. -/
def replaying : Store (List StoreCall) where
  getScaler
    | _, .gotScaler _ answer :: rest => (answer, rest)
    | _, rest => (.error .notFound, rest)
  getWorkload
    | _, .sent _ (.workload answer) :: rest => (answer, rest)
    | _, rest => (.error .notFound, rest)
  getDeployment
    | _, .sent _ (.deployment answer) :: rest => (answer, rest)
    | _, rest => (.error .notFound, rest)
  patchDeployment
    | _, _, .sent _ (.patched answer) :: rest => (answer, rest)
    | _, _, rest => (.error .notFound, rest)
  updateStatus
    | _, .sent _ (.statusUpdated answer) :: rest => (answer, rest)
    | _, rest => (.error .notFound, rest)

section Replays

variable {config : Config} {scaler : Scaler} {calls : List StoreCall}

theorem readFirst_replaying {first chosen : TypedReference} {others rest : List TypedReference}
    {failed : List (TypedReference × ApiError)} {answer : Except ApiError Deployment}
    (hsplit : first :: others = failed.map Prod.fst ++ chosen :: rest)
    (hrest : ∀ error, answer = .error error → rest = []) (more : List StoreCall) :
    readFirst replaying scaler first others
        (passedOver scaler failed ++ askedCandidate scaler chosen answer :: more) =
      (answer, more) := by
  induction failed generalizing first others with
  | nil =>
      obtain ⟨rfl, rfl⟩ := List.cons.inj hsplit
      cases answer with
      | ok deployment => cases others <;> rfl
      | error error =>
          obtain rfl := hrest error rfl
          rfl
  | cons entry failed ih =>
      obtain ⟨rfl, hothers⟩ := List.cons.inj hsplit
      cases others with
      | nil => cases failed <;> cases hothers
      | cons next others => exact ih hothers

theorem examine_askedWorkload (answer : Except ApiError Workload) (rest : List StoreCall) :
    examine config replaying scaler (askedWorkload scaler answer :: rest) =
      resolve config replaying scaler answer rest := rfl

theorem examine_askedCandidates {workload : Workload} (hpoints : PointsTo scaler workload)
    {failed : List (TypedReference × ApiError)} {chosen : TypedReference}
    {rest : List TypedReference} {answer : Except ApiError Deployment}
    (hcandidates : candidatesOf config workload = failed.map Prod.fst ++ chosen :: rest)
    (hrest : ∀ error, answer = .error error → rest = []) (more : List StoreCall) :
    examine config replaying scaler
        (askedWorkload scaler (.ok workload) :: passedOver scaler failed ++
          [askedCandidate scaler chosen answer] ++ more) =
      settle config replaying scaler answer more := by
  rw [List.append_assoc, List.singleton_append, List.cons_append, examine_askedWorkload, resolve,
    if_pos ((isIntended_iff scaler workload).2 hpoints)]
  cases hall : candidatesOf config workload with
  | nil =>
      rw [hall] at hcandidates
      cases failed <;> cases hcandidates
  | cons first others =>
      rw [hall] at hcandidates
      dsimp only
      rw [search, readFirst_replaying hcandidates hrest]

theorem Locates.examine_replaying {deployment : Deployment}
    (h : Locates config scaler calls deployment) (more : List StoreCall) :
    examine config replaying scaler (calls ++ more) =
      bring config replaying scaler deployment more := by
  cases h with
  | read hpoints hcandidates =>
      refine examine_askedCandidates hpoints hcandidates (fun error herror => ?_) more
      cases herror

/-- Every course is that of a reconcile on some store: the one that gives its answers once more. -/
theorem Course.examine_replaying {finding : Finding} (h : Course config scaler calls finding)
    (more : List StoreCall) :
    examine config replaying scaler (calls ++ more) = (finding, more) := by
  cases h with
  | workloadUnreadable error => rfl
  | @otherWorkload workload hpoints =>
      rw [List.singleton_append, examine_askedWorkload, resolve, if_neg]
      exact fun hintended => hpoints ((isIntended_iff scaler workload).1 hintended)
  | @noCandidate workload hpoints hnone =>
      rw [List.singleton_append, examine_askedWorkload, resolve,
        if_pos ((isIntended_iff scaler workload).2 hpoints),
        (candidatesOf_eq_nil_iff config workload).2 hnone]
  | candidatesUnreadable hpoints hcandidates =>
      exact examine_askedCandidates hpoints hcandidates (fun _ _ => rfl) more
  | ownerIncomplete hlocates howner =>
      rw [hlocates.examine_replaying, bring, scaler.ownerReference?_eq_none_iff.2 howner]
  | ownerRefused hlocates howner hrefuses =>
      rw [hlocates.examine_replaying, bring, howner]
      dsimp only
      rw [(desired_eq_error_iff scaler _ _ _).2 hrefuses]
  | patchRefused error hlocates howner hdesired =>
      rw [List.append_assoc, hlocates.examine_replaying, bring, howner]
      dsimp only
      rw [hdesired]
      rfl
  | scaled hlocates howner hdesired =>
      rw [List.append_assoc, hlocates.examine_replaying, bring, howner]
      dsimp only
      rw [hdesired]
      rfl

/-- The calls of a course decide its finding. -/
theorem Course.finding_eq {finding other : Finding} (h : Course config scaler calls finding)
    (hother : Course config scaler calls other) : other = finding := by
  have hreplay := h.examine_replaying []
  rw [hother.examine_replaying []] at hreplay
  exact congrArg Prod.fst hreplay

end Replays

/-! ## Courses write no status -/

section Searched

variable {config : Config} {scaler : Scaler} {calls : List StoreCall}

theorem not_writesStatus_of_locates {deployment : Deployment}
    (h : Locates config scaler calls deployment) : ∀ call ∈ calls, ¬ call.WritesStatus := by
  cases h with
  | read hpoints hcandidates =>
      rintro call hmem ⟨written, response, rfl⟩
      simp [askedWorkload, passedOver, askedCandidate] at hmem

theorem not_writesStatus_of_course {finding : Finding} (h : Course config scaler calls finding) :
    ∀ call ∈ calls, ¬ call.WritesStatus := by
  cases h with
  | workloadUnreadable | otherWorkload | noCandidate | candidatesUnreadable =>
      rintro call hmem ⟨written, response, rfl⟩
      simp [askedWorkload, passedOver, askedCandidate] at hmem
  | ownerIncomplete hlocates | ownerRefused hlocates => exact not_writesStatus_of_locates hlocates
  | patchRefused error hlocates | scaled hlocates =>
      intro call hmem hwrites
      rcases List.mem_append.1 hmem with hlocated | hpatch
      · exact not_writesStatus_of_locates hlocates call hlocated hwrites
      · obtain ⟨written, response, rfl⟩ := hwrites
        simp at hpatch

end Searched

/-! ## Reports -/

/-- What a reconcile has done that found something out, once its report is answered. -/
structure Reported (config : Config) (key : Key) (scaler : Scaler) (calls : List StoreCall)
    (result : Except ReconcileError Outcome) (searched : List StoreCall) (finding : Finding)
    (written : Scaler) (answer : Except ApiError Scaler) : Prop where
  /-- The finding is that of the first stage that failed, or success; the calls allow for no other
  one. -/
  course : Course config scaler searched finding
  course_unique : ∀ other, Course config scaler searched other → other = finding
  /-- The status write is the last call, and the only one of its kind. -/
  calls_eq : calls =
    .gotScaler key (.ok scaler) :: searched ++
      [.sent (.updateStatus written) (.statusUpdated answer)]
  written_once : ∀ call ∈ searched, ¬ call.WritesStatus
  /-- The condition says what was found. -/
  condition : ∃ condition, written.synced? = some condition ∧
    condition.status = finding.status ∧ condition.reason = finding.reason ∧
    condition.message = finding.message config
  /-- The finding is the result as well, unless the status could not be written. -/
  result_eq : result = (finding.conclude config answer).mapError .stepFailed

section Reports

variable {σ : Type} (now : Time) (config : Config) (store : Store σ) (key : Key) (world : σ)

/-- A reconcile that could read its scaler reports what its course comes to, in its only status
write, and ends as the finding and the answer to that write say. -/
theorem reconcile_reports {scaler : Scaler} (hread : (store.getScaler key world).1 = .ok scaler) :
    ∃ searched finding written answer,
      Reported config key scaler (calls now config store key world)
        (reconcile now config store key world).1 searched finding written answer := by
  obtain ⟨searched, hcourse, hsearched⟩ := examine_course config store scaler
    (store.getScaler key world).2 []
  have hrun := run_eq now config store.recording scaler ((store.getScaler key world).2, [])
  dsimp only at hrun
  generalize examine config store.recording scaler ((store.getScaler key world).2, []) = found
    at hcourse hsearched hrun
  obtain ⟨finding, after, made⟩ := found
  obtain rfl : made = searched := hsearched
  rw [Session.run_recording, announce, Store.updateStatus_recording] at hrun
  dsimp only at hrun
  generalize store.updateStatus (scaler.reporting (finding.condition config now)) after = written
    at hrun
  obtain ⟨answer, last⟩ := written
  obtain ⟨hresult, -, hcalls⟩ : _ ∧ _ ∧ _ := by simpa only [Prod.mk.injEq] using hrun
  refine ⟨made, finding, scaler.reporting (finding.condition config now), answer, hcourse,
    fun _ => hcourse.finding_eq, ?_, not_writesStatus_of_course hcourse,
    finding.synced?_reporting config now scaler, ?_⟩
  · rw [List.nil_append] at hcalls
    rw [calls_of_ok now config store hread, hcalls]
    rfl
  · rw [reconcile_of_ok now config store hread]
    exact congrArg (Except.mapError ReconcileError.stepFailed) hresult

end Reports

/-- A scaler that points to a workload. -/
def sampleScanner : Scaler :=
  { metadata := { name := some "web", ns := some "shop", uid := some "scaler" }
    spec := ⟨3, { apiVersion := none, kind := none, name := "web", uid := some "workload" }⟩
    status := none }

/-- The workload, which manages two Deployments and a Service. -/
def sampleListing : Workload :=
  { metadata := { name := some "web", ns := some "shop", uid := some "workload" }
    spec := ⟨none, []⟩
    status := some ⟨[], [⟨none, some "Deployment", "front", none⟩,
      ⟨none, some "Service", "front", none⟩, ⟨none, some "Deployment", "back", none⟩]⟩ }

/-- A store with the two, and with an answer for each Deployment. -/
def sampleAnswers (front back : Except ApiError Deployment) : Store Unit where
  getScaler _ world := (.ok sampleScanner, world)
  getWorkload _ world := (.ok sampleListing, world)
  getDeployment key world := (if key.name = "back" then back else front, world)
  patchDeployment _ _ world := (back, world)
  updateStatus written world := (.ok written, world)

/-- Either the second Deployment is read and scaled, or the error of this last one is reported. -/
theorem reconcile_reports_sampleAnswers :
    let now : Time := ⟨1714557600, 0⟩
    let key : Key := ⟨"shop", "web"⟩
    let found := sampleAnswers (.error .notFound) (.ok { metadata := { name := some "back" } })
    let scaled := { sampleScanner with status := some ⟨[.success now]⟩ }
    let missed := sampleAnswers (.error .notFound) (.error .conflict)
    let unscaled :=
      { sampleScanner with
        status := some ⟨[.failure now .cannotLocateDeployment
          ("cannot find deployment" ++ ": " ++ ApiError.conflict.message)]⟩ }
    ((found.getScaler key ()).1 = .ok sampleScanner ∧ ∃ searched finding,
        Reported {} key sampleScanner (calls now {} found key ()) (reconcile now {} found key ()).1
          searched finding scaled (.ok scaled)) ∧
      (missed.getScaler key ()).1 = .ok sampleScanner ∧ ∃ searched finding,
        Reported {} key sampleScanner (calls now {} missed key ())
          (reconcile now {} missed key ()).1 searched finding unscaled (.ok unscaled) := by
  intro now key found scaled missed unscaled
  -- The last call shows which status was written.
  have hreports {store : Store Unit} {written : Scaler}
      (hread : (store.getScaler key ()).1 = .ok sampleScanner)
      (hlast : (calls now {} store key ()).getLast? =
        some (.sent (.updateStatus written) (.statusUpdated (.ok written)))) :
      ∃ searched finding, Reported {} key sampleScanner (calls now {} store key ())
        (reconcile now {} store key ()).1 searched finding written (.ok written) := by
    obtain ⟨searched, finding, made, answer, h⟩ := reconcile_reports now {} store key () hread
    rw [h.calls_eq, List.getLast?_concat] at hlast
    cases hlast
    exact ⟨searched, finding, h⟩
  have hfound : (found.getScaler key ()).1 = .ok sampleScanner := rfl
  have hmissed : (missed.getScaler key ()).1 = .ok sampleScanner := rfl
  refine ⟨⟨hfound, hreports hfound ?_⟩, hmissed, hreports hmissed ?_⟩
  · rw [calls_of_ok now {} found hfound, Session.calls, run_eq]
    rfl
  · rw [calls_of_ok now {} missed hmissed, Session.calls, run_eq]
    rfl

end Reconcile

end ReplicaKeeper
