import ReplicaKeeper.Proofs.Reconcile.Effect

/-!
# A reconcile that is repeated

A reconcile that is run once more, right after it was run, has the same result and makes the same
requests, but it changes nothing any more: `reconcile_repeats`.  Only the scaler gets another
resource version, because its status is written again.

The first run leaves the Deployment that it read as it is, or it makes it what the second run wants;
so the second run comes to the same finding, `examine_again`.
-/

set_option autoImplicit false

namespace ReplicaKeeper

open Entries

namespace Server

/-! ## Requests without faults -/

/-- No fault is pending, and no other writer changes Deployments before a patch. -/
structure Undisturbed (server : Server) : Prop where
  faults : server.faults = []
  beforePatch : server.beforePatch = none

/-- The server with some more requests in its record. -/
def noted (records : List RequestRecord) (server : Server) : Server :=
  { server with requests := server.requests ++ records }

theorem sameObjects_noted (records : List RequestRecord) (server : Server) :
    SameObjects (server.noted records) server := ⟨rfl, rfl, rfl, rfl, rfl, rfl⟩

theorem Keyed.noted {server : Server} (h : server.Keyed) (records : List RequestRecord) :
    (server.noted records).Keyed :=
  h.of_sameObjects (sameObjects_noted records server)

theorem noted_noted (first second : List RequestRecord) (server : Server) :
    (server.noted first).noted second = server.noted (first ++ second) := by
  simp only [noted, List.append_assoc]

theorem noted_nil (server : Server) : server.noted [] = server := by
  simp only [noted, List.append_nil]

theorem noted_inj {first second : List RequestRecord} {server : Server}
    (h : server.noted first = server.noted second) : first = second :=
  List.append_cancel_left (congrArg Server.requests h)

theorem Undisturbed.noted {server : Server} (h : server.Undisturbed)
    (records : List RequestRecord) : (server.noted records).Undisturbed :=
  ⟨h.faults, h.beforePatch⟩

section Undisturbed

variable {server : Server} (h : server.Undisturbed) (key : Key)
include h

theorem Undisturbed.receive (operation : Operation) :
    server.receive operation key = (none, server.noted [⟨operation, key⟩]) :=
  receive_of_faults_eq_nil operation key h.faults

theorem Undisturbed.getScaler : server.getScaler key =
    (find server.scalers key, server.noted [⟨.getScaler, key⟩]) := by
  rw [getScaler_eq, h.receive]
  rfl

theorem Undisturbed.getWorkload : server.getWorkload key =
    (find server.workloads key, server.noted [⟨.getWorkload, key⟩]) := by
  rw [getWorkload_eq, h.receive]
  rfl

theorem Undisturbed.getDeployment : server.getDeployment key =
    (find server.deployments key, server.noted [⟨.getDeployment, key⟩]) := by
  rw [getDeployment_eq, h.receive]
  rfl

theorem Undisturbed.patchDeployment {stored : Deployment}
    (hstored : get? server.deployments key = some stored) (patch : Json) :
    server.patchDeployment key patch =
      match patched key patch stored with
      | .error error => (.error error, server.noted [⟨.patchDeployment, key⟩])
      | .ok merged =>
          (.ok ((server.noted [⟨.patchDeployment, key⟩]).storePatched key stored merged).1,
            ((server.noted [⟨.patchDeployment, key⟩]).storePatched key stored merged).2) := by
  have hfound : get? (server.noted [⟨.patchDeployment, key⟩]).deployments key = some stored :=
    hstored
  have hmet := runBeforePatch_of_none key (h.noted [⟨.patchDeployment, key⟩]).beforePatch stored
  unfold Server.patchDeployment
  rw [h.receive]
  dsimp only
  rw [hfound]
  cases hpatched : patched key patch stored with
  | error error => simp only [hmet, hpatched]
  | ok merged => simp only [hmet, hpatched]

/-- A scaler can always be reported on as it was read. -/
theorem Undisturbed.report {scaler : Scaler}
    (hstored : get? server.scalers scaler.metadata.key = some scaler) (condition : Condition) :
    let written :=
      (scaler.reporting condition).withVersion (some (toString (server.versionCounter + 1)))
    let received := server.noted [⟨.updateStatus, scaler.metadata.key⟩]
    server.updateStatus (scaler.reporting condition) =
      (.ok written,
        { received with
          scalers := insert scaler.metadata.key written received.scalers
          versionCounter := received.versionCounter + 1 }) := by
  have hfound : get? (server.noted [⟨.updateStatus, scaler.metadata.key⟩]).scalers
      (scaler.reporting condition).metadata.key = some scaler := hstored
  have hmay : mayReport (scaler.reporting condition).metadata scaler.metadata = true := by
    have hmetadata : (scaler.reporting condition).metadata = scaler.metadata := rfl
    simp [mayReport, hmetadata]
  unfold Server.updateStatus
  dsimp only
  rw [h.receive]
  dsimp only
  rw [show (⟨.updateStatus, (scaler.reporting condition).metadata.key⟩ : RequestRecord) =
    ⟨.updateStatus, scaler.metadata.key⟩ from rfl, hfound]
  dsimp only
  rw [if_pos hmay]
  rfl

end Undisturbed

end Server

namespace Reconcile

open Server

/-! ## What a report does not touch -/

section Intent

variable {σ : Type} (config : Config) (store : Store σ) (scaler : Scaler) (condition : Condition)
  (version : Option String)

theorem readFirst_reporting (first : TypedReference) (others : List TypedReference) (world : σ) :
    readFirst store ((scaler.reporting condition).withVersion version) first others world =
      readFirst store scaler first others world := by
  induction others generalizing first world with
  | nil => rfl
  | cons next others ih =>
      have hcandidate : candidateKey ((scaler.reporting condition).withVersion version) first =
          candidateKey scaler first := rfl
      rw [readFirst, readFirst, hcandidate]
      simp only [ih]

/-- A reconcile does not look at the status of its scaler. -/
theorem examine_reporting (world : σ) :
    examine config store ((scaler.reporting condition).withVersion version) world =
      examine config store scaler world := by
  have hsearch (first : TypedReference) (others : List TypedReference) (world : σ) :
      search config store ((scaler.reporting condition).withVersion version) first others world =
        search config store scaler first others world := by
    unfold search
    rw [readFirst_reporting]
    rfl
  have hresolve (answer : Except ApiError Workload) (world : σ) :
      resolve config store ((scaler.reporting condition).withVersion version) answer world =
        resolve config store scaler answer world := by
    cases answer with
    | error error => rfl
    | ok workload =>
        have hintended : isIntended ((scaler.reporting condition).withVersion version) workload =
            isIntended scaler workload := rfl
        rw [resolve, resolve, hintended]
        simp only [hsearch]
  exact hresolve _ _

end Intent

/-! ## Searches that are repeated -/

section Searches

variable {server later : Server}

/-- Two undisturbed servers hold Deployments under the same keys. -/
structure Alike (server later : Server) : Prop where
  undisturbed : server.Undisturbed
  undisturbed_later : later.Undisturbed
  isSome_eq : ∀ key,
    (Entries.get? later.deployments key).isSome = (Entries.get? server.deployments key).isSome

theorem Alike.noted (h : Alike server later) (records : List RequestRecord) :
    Alike (server.noted records) (later.noted records) :=
  ⟨h.undisturbed.noted records, h.undisturbed_later.noted records, h.isSome_eq⟩

/-- A Deployment is found on both servers or on none. -/
theorem Alike.getDeployment (h : Alike server later) (key : Key) :
    (server.getDeployment key = (.error .notFound, server.noted [⟨.getDeployment, key⟩]) ∧
        later.getDeployment key = (.error .notFound, later.noted [⟨.getDeployment, key⟩])) ∨
      ∃ fetched refetched, Entries.get? server.deployments key = some fetched ∧
        Entries.get? later.deployments key = some refetched ∧
        server.getDeployment key = (.ok fetched, server.noted [⟨.getDeployment, key⟩]) ∧
        later.getDeployment key = (.ok refetched, later.noted [⟨.getDeployment, key⟩]) := by
  have hsome := h.isSome_eq key
  rw [h.undisturbed.getDeployment, h.undisturbed_later.getDeployment, find, find]
  cases hfetched : Entries.get? server.deployments key with
  | none =>
      rw [hfetched] at hsome
      rw [Option.isSome_eq_false_iff.1 hsome |> Option.isNone_iff_eq_none.1]
      exact .inl ⟨rfl, rfl⟩
  | some fetched =>
      rw [hfetched] at hsome
      obtain ⟨refetched, hrefetched⟩ := Option.isSome_iff_exists.1 hsome
      rw [hrefetched]
      exact .inr ⟨fetched, refetched, rfl, rfl, rfl, rfl⟩

/-- What the same search finds on two servers: nothing on either, or Deployments under one key. -/
inductive Refound (scaler : Scaler) (server later : Server) :
    Except ApiError Deployment → Except ApiError Deployment → Prop
  | nothing (error : ApiError) : Refound scaler server later (.error error) (.error error)
  | deployment {chosen : TypedReference} {fetched refetched : Deployment}
      (hfetched : Entries.get? server.deployments (candidateKey scaler chosen) = some fetched)
      (hrefetched : Entries.get? later.deployments (candidateKey scaler chosen) = some refetched) :
      Refound scaler server later (.ok fetched) (.ok refetched)

/-- A search asks alike servers for the same candidates. -/
theorem readFirst_alike (h : Alike server later) (scaler : Scaler) (first : TypedReference)
    (others : List TypedReference) :
    ∃ records found again,
      readFirst store scaler first others server = (found, server.noted records) ∧
      readFirst store scaler first others later = (again, later.noted records) ∧
      Refound scaler server later found again := by
  induction others generalizing first server later with
  | nil =>
      rcases h.getDeployment (candidateKey scaler first) with ⟨hnone, hagain⟩ |
        ⟨fetched, refetched, hfetched, hrefetched, hfound, hagain⟩
      · exact ⟨_, _, _, hnone, hagain, .nothing _⟩
      · exact ⟨_, _, _, hfound, hagain, .deployment hfetched hrefetched⟩
  | cons next others ih =>
      rcases h.getDeployment (candidateKey scaler first) with ⟨hnone, hagain⟩ |
        ⟨fetched, refetched, hfetched, hrefetched, hfound, hagain⟩
      · obtain ⟨records, found, again, hfirst, hsecond, hfinds⟩ :=
          ih (h.noted [⟨.getDeployment, candidateKey scaler first⟩]) next
        have hskip : readFirst store scaler first (next :: others) server =
            readFirst store scaler next others
              (server.noted [⟨.getDeployment, candidateKey scaler first⟩]) := by
          rw [readFirst, show store.getDeployment _ server = _ from hnone]
        have hskip_later : readFirst store scaler first (next :: others) later =
            readFirst store scaler next others
              (later.noted [⟨.getDeployment, candidateKey scaler first⟩]) := by
          rw [readFirst, show store.getDeployment _ later = _ from hagain]
        rw [noted_noted] at hfirst hsecond
        refine ⟨_, found, again, hskip.trans hfirst, hskip_later.trans hsecond, ?_⟩
        cases hfinds with
        | nothing error => exact .nothing error
        | deployment hfetched hrefetched => exact .deployment hfetched hrefetched
      · refine ⟨[⟨.getDeployment, candidateKey scaler first⟩], .ok fetched, .ok refetched, ?_, ?_,
          .deployment hfetched hrefetched⟩
        · rw [readFirst, show store.getDeployment _ server = _ from hfound]
        · rw [readFirst, show store.getDeployment _ later = _ from hagain]

/-- All servers that are alike are asked for the same candidates. -/
theorem readFirst_again (h : server.Undisturbed) (scaler : Scaler) (first : TypedReference)
    (others : List TypedReference) :
    ∃ records found, readFirst store scaler first others server = (found, server.noted records) ∧
      ∀ later : Server, Alike server later → ∃ again,
        readFirst store scaler first others later = (again, later.noted records) ∧
        Refound scaler server later found again := by
  obtain ⟨records, found, _, hfirst, -, -⟩ :=
    readFirst_alike (⟨h, h, fun _ => rfl⟩ : Alike server server) scaler first others
  refine ⟨records, found, hfirst, fun later hlater => ?_⟩
  obtain ⟨other, found', again, hsame, hagain, hfinds⟩ := readFirst_alike hlater scaler first others
  obtain ⟨rfl, hrecords⟩ := Prod.mk.inj (hfirst.symm.trans hsame)
  obtain rfl := noted_inj hrecords
  exact ⟨again, hagain, hfinds⟩

end Searches

/-! ## Stages that are repeated -/

section Stages

variable (config : Config) {scaler : Scaler} {server later : Server}

/-- What a reconcile does to an undisturbed server before the report: it makes requests, and may
change Deployments that are there. -/
structure Advanced (records : List RequestRecord) (server after : Server) : Prop where
  undisturbed : after.Undisturbed
  requests : after.requests = server.requests ++ records
  scalers : after.scalers = server.scalers
  workloads : after.workloads = server.workloads
  isSome_eq : ∀ key,
    (Entries.get? after.deployments key).isSome = (Entries.get? server.deployments key).isSome

theorem advanced_noted (h : server.Undisturbed) (records : List RequestRecord) :
    Advanced records server (server.noted records) :=
  ⟨h.noted records, rfl, rfl, rfl, fun _ => rfl⟩

theorem Advanced.trans {first second : List RequestRecord} {between after : Server}
    (h : Advanced first server between) (hnext : Advanced second between after) :
    Advanced (first ++ second) server after where
  undisturbed := hnext.undisturbed
  requests := by rw [hnext.requests, h.requests, List.append_assoc]
  scalers := hnext.scalers.trans h.scalers
  workloads := hnext.workloads.trans h.workloads
  isSome_eq key := (hnext.isSome_eq key).trans (h.isSome_eq key)

theorem advanced_storePatched (h : server.Undisturbed) {key : Key} {current : Deployment}
    (hcurrent : Entries.get? server.deployments key = some current) (merged : Deployment) :
    Advanced [] server (server.storePatched key current merged).2 := by
  unfold storePatched
  split
  · exact ⟨h, (List.append_nil _).symm, rfl, rfl, fun _ => rfl⟩
  · refine ⟨⟨h.faults, h.beforePatch⟩, (List.append_nil _).symm, rfl, rfl, fun other => ?_⟩
    change (Entries.get? (insert key _ server.deployments) other).isSome = _
    rw [get?_insert]
    split
    · next hother =>
      rw [← hother, hcurrent]
      rfl
    · rfl

/-- A patch that succeeded has nothing left to do, and one that failed fails again. -/
theorem patch_again {key : Key} {owner : OwnerReference} {fetched wanted : Deployment}
    (h : server.Undisturbed) (hfetched : Entries.get? server.deployments key = some fetched)
    (hkey : fetched.metadata.key = key) (hdesired : desired scaler owner fetched = .ok wanted) :
    let patched := server.patchDeployment key (patchTo config fetched wanted)
    Advanced [⟨.patchDeployment, key⟩] server patched.2 ∧
      ∀ (later : Server) (refetched : Deployment), later.Undisturbed →
        later.deployments = patched.2.deployments →
        Entries.get? later.deployments key = some refetched →
        ∃ rewanted, desired scaler owner refetched = .ok rewanted ∧
          refetched.metadata.key = key ∧
          ∃ answer, later.patchDeployment key (patchTo config refetched rewanted) =
              (answer, later.noted [⟨.patchDeployment, key⟩]) ∧
            Finding.ofPatch answer = Finding.ofPatch patched.1 := by
  have hnoted := advanced_noted h [⟨.patchDeployment, key⟩]
  dsimp only
  rw [h.patchDeployment key hfetched]
  cases hpatched : patched key (patchTo config fetched wanted) fetched with
  | error error =>
      refine ⟨hnoted, fun later refetched hlater hsame hrefetched => ?_⟩
      obtain rfl : refetched = fetched := by
        rw [hsame] at hrefetched
        exact Option.some.inj (hrefetched.symm.trans hfetched)
      refine ⟨wanted, hdesired, hkey, .error error, ?_, rfl⟩
      rw [hlater.patchDeployment key hrefetched, hpatched]
  | ok merged =>
      obtain ⟨hcalendar, -, rfl⟩ := (patched_patchTo_eq_ok_iff config hdesired _ _).1 hpatched
      have hstored := advanced_storePatched (h.noted [⟨.patchDeployment, key⟩]) hfetched
        wanted.wholeSeconds
      have hnotedFetched : Entries.get? (server.noted [⟨.patchDeployment, key⟩]).deployments key =
          some fetched := hfetched
      obtain ⟨version, -, hchanged⟩ := changed_storePatched hnotedFetched wanted.wholeSeconds
      refine ⟨hnoted.trans hstored, fun later refetched hlater hsame hrefetched => ?_⟩
      obtain rfl : refetched = wanted.wholeSeconds.withVersion version := by
        rw [hsame] at hrefetched
        exact Option.some.inj (hrefetched.symm.trans hchanged.deployment)
      -- What was stored is what is wanted now, so that the second patch changes nothing.
      have hagain := desired_wholeSeconds hdesired version
      have hrekey : (wanted.wholeSeconds.withVersion version).metadata.key = key := by
        obtain ⟨owners, -, rfl⟩ := exists_owners_of_desired hdesired
        exact hkey
      obtain ⟨hrecalendar, hwhole⟩ := hcalendar.wholeSeconds
      have hrepatched := (patched_patchTo_eq_ok_iff config hagain key _).2
        ⟨hrecalendar, hrekey, rfl⟩
      rw [Deployment.wholeSeconds_withVersion, hwhole] at hrepatched
      refine ⟨_, hagain, hrekey, .ok (wanted.wholeSeconds.withVersion version), ?_, rfl⟩
      rw [hlater.patchDeployment key hrefetched, hrepatched]
      dsimp only
      rw [storePatched, if_pos rfl]

/-- A Deployment that was brought to what it should be stays so. -/
theorem bring_again {chosen : TypedReference} {fetched : Deployment} (h : server.Undisturbed)
    (hfetched : Entries.get? server.deployments (candidateKey scaler chosen) = some fetched)
    (hkey : fetched.metadata.key = candidateKey scaler chosen) :
    ∃ records, Advanced records server (bring config store scaler fetched server).2 ∧
      ∀ later refetched, later.Undisturbed →
        later.deployments = (bring config store scaler fetched server).2.deployments →
        Entries.get? later.deployments (candidateKey scaler chosen) = some refetched →
        bring config store scaler refetched later =
          ((bring config store scaler fetched server).1, later.noted records) := by
  have hkept : Advanced [] server server := by
    simpa only [noted_nil] using advanced_noted h []
  have hunchanged {later : Server} {refetched : Deployment}
      (hsame : later.deployments = server.deployments)
      (hrefetched : Entries.get? later.deployments (candidateKey scaler chosen) = some refetched) :
      refetched = fetched := by
    rw [hsame] at hrefetched
    exact Option.some.inj (hrefetched.symm.trans hfetched)
  unfold bring
  cases howner : scaler.ownerReference? with
  | none => exact ⟨[], hkept, fun later refetched _ _ _ => by rw [noted_nil]⟩
  | some owner =>
      dsimp only
      cases hdesired : desired scaler owner fetched with
      | error error =>
          refine ⟨[], hkept, fun later refetched _ hsame hrefetched => ?_⟩
          obtain rfl := hunchanged hsame hrefetched
          rw [hdesired, noted_nil]
      | ok wanted =>
          dsimp only
          rw [targetKey_eq_candidateKey hkey]
          obtain ⟨hadvanced, hagain⟩ := patch_again config h hfetched hkey hdesired
          refine ⟨_, hadvanced, fun later refetched hlater hsame hrefetched => ?_⟩
          obtain ⟨rewanted, hrewanted, hrekey, answer, hanswer, hfinding⟩ :=
            hagain later refetched hlater hsame hrefetched
          rw [hrewanted]
          dsimp only
          rw [targetKey_eq_candidateKey hrekey,
            show store.patchDeployment _ (patchTo config refetched rewanted) later = _ from hanswer]
          exact congrArg (·, _) hfinding

/-- A stage comes to the same finding when it is repeated after its end, and then only makes the
same requests. -/
structure Again (stage : Server → Finding × Server) (server : Server)
    (records : List RequestRecord) : Prop where
  advanced : Advanced records server (stage server).2
  repeated : ∀ later : Server, later.Undisturbed → later.workloads = server.workloads →
    later.deployments = (stage server).2.deployments →
    stage later = ((stage server).1, later.noted records)

theorem search_again (scaler : Scaler) (h : server.Undisturbed) (hkeyed : server.Keyed)
    (first : TypedReference) (others : List TypedReference) :
    ∃ records, Again (search config store scaler first others) server records := by
  obtain ⟨records, found, hfirst, hlike⟩ := readFirst_again h scaler first others
  have hsearch : search config store scaler first others server =
      settle config store scaler found (server.noted records) := by
    rw [search, hfirst]
  cases found with
  | error error =>
      refine ⟨records, ?_, fun later hlater _ hsame => ?_⟩
      · rw [hsearch]
        exact advanced_noted h records
      · rw [hsearch] at hsame ⊢
        obtain ⟨again, hagain, hfinds⟩ := hlike later ⟨h, hlater, fun key => by rw [hsame]; rfl⟩
        cases hfinds
        rw [search, hagain]
        rfl
  | ok fetched =>
      obtain ⟨_, -, hfinds⟩ := hlike server ⟨h, h, fun _ => rfl⟩
      generalize hfetched : Except.ok fetched = found at hfinds
      cases hfinds with
      | nothing error => cases hfetched
      | @deployment chosen _ _ hfound =>
          cases hfetched
          have hkey := hkeyed.deployments h.beforePatch _ _ hfound
          obtain ⟨more, hadvanced, hbring⟩ := bring_again config (h.noted records) hfound hkey
          refine ⟨records ++ more, ?_, fun later hlater _ hsame => ?_⟩
          · rw [hsearch]
            exact (advanced_noted h records).trans hadvanced
          · rw [hsearch] at hsame ⊢
            obtain ⟨again, hagain, hfinds⟩ :=
              hlike later ⟨h, hlater, fun key => by rw [hsame]; exact hadvanced.isSome_eq key⟩
            cases hfinds with
            | @deployment chosen' _ refetched hstored hrefetched =>
                have hchosen : candidateKey scaler chosen' = candidateKey scaler chosen :=
                  (hkeyed.deployments h.beforePatch _ _ hstored).symm.trans hkey
                rw [hchosen] at hrefetched
                rw [search, hagain]
                dsimp only [settle]
                rw [hbring _ refetched (hlater.noted records) hsame hrefetched, noted_noted]

section Examinations

variable (scaler : Scaler) (h : server.Undisturbed)
include h

theorem examine_of_undisturbed : examine config store scaler server =
    resolve config store scaler (find server.workloads (workloadKey scaler))
      (server.noted [⟨.getWorkload, workloadKey scaler⟩]) := by
  rw [examine, show store.getWorkload _ server = _ from h.getWorkload _]

/-- Without a search the answer for the workload alone decides. -/
theorem examine_again_of_decided {finding : Finding}
    (hresolve : ∀ later : Server,
      resolve config store scaler (find server.workloads (workloadKey scaler)) later =
        (finding, later)) :
    Again (examine config store scaler) server [⟨.getWorkload, workloadKey scaler⟩] := by
  refine ⟨?_, fun later hlater hworkloads _ => ?_⟩
  · rw [examine_of_undisturbed config scaler h, hresolve]
    exact advanced_noted h _
  · rw [examine_of_undisturbed config scaler h, examine_of_undisturbed config scaler hlater,
      hworkloads, hresolve, hresolve]

theorem examine_again (hkeyed : server.Keyed) :
    ∃ records, Again (examine config store scaler) server records := by
  have hdecided {finding : Finding} := @examine_again_of_decided config server scaler h finding
  have hexamine := examine_of_undisturbed config scaler h
  cases hworkload : find server.workloads (workloadKey scaler) with
  | error error =>
      rw [hworkload] at hdecided
      exact ⟨_, hdecided fun later => rfl⟩
  | ok workload =>
      rw [hworkload] at hdecided hexamine
      by_cases hintended : isIntended scaler workload = true
      · cases hcandidates : candidatesOf config workload with
        | nil => exact ⟨_, hdecided fun later => by rw [resolve, if_pos hintended, hcandidates]⟩
        | cons first others =>
            have hresolve (later : Server) : resolve config store scaler (.ok workload) later =
                search config store scaler first others later := by
              rw [resolve, if_pos hintended, hcandidates]
            obtain ⟨records, hsearch⟩ := search_again config scaler (h.noted _)
              (hkeyed.noted [⟨.getWorkload, workloadKey scaler⟩]) first others
            rw [hresolve] at hexamine
            refine ⟨[⟨.getWorkload, workloadKey scaler⟩] ++ records, ?_,
              fun later hlater hworkloads hdeployments => ?_⟩
            · rw [hexamine]
              exact (advanced_noted h _).trans hsearch.advanced
            · rw [hexamine] at hdeployments ⊢
              rw [examine_of_undisturbed config scaler hlater, hworkloads, hworkload, hresolve,
                hsearch.repeated _ (hlater.noted _) hworkloads hdeployments, noted_noted]
      · exact ⟨_, hdecided fun later => by rw [resolve, if_neg hintended]⟩

end Examinations

end Stages

/-! ## Reconciles that are repeated -/

/-- A reconcile led from `before` to `first`, and the same one again from there to `second`. -/
structure Repeats (key : Key) (before first second : Server)
    (result again : Except ReconcileError Outcome) : Prop where
  result : again = result
  /-- Both runs make the same requests. -/
  requests : ∃ records, first.requests = before.requests ++ records ∧
    second.requests = first.requests ++ records
  deployments : second.deployments = first.deployments
  workloads : second.workloads = first.workloads
  otherScalers : ∀ other, other ≠ key →
    Entries.get? second.scalers other = Entries.get? first.scalers other
  /-- The scaler stays as the first run left it, but under another version. -/
  scaler : (Entries.get? second.scalers key).map (Scaler.withVersion none) =
    (Entries.get? first.scalers key).map (Scaler.withVersion none)

/-- The server after the report on a scaler. -/
def announcing (scaler : Scaler) (condition : Condition) (server : Server) : Server :=
  let written :=
    (scaler.reporting condition).withVersion (some (toString (server.versionCounter + 1)))
  let received := server.noted [⟨.updateStatus, scaler.metadata.key⟩]
  { received with
    scalers := insert scaler.metadata.key written received.scalers
    versionCounter := received.versionCounter + 1 }

theorem get?_announcing (scaler : Scaler) (condition : Condition) (server : Server) (key : Key) :
    Entries.get? (announcing scaler condition server).scalers key =
      if scaler.metadata.key = key then
        some ((scaler.reporting condition).withVersion (some (toString (server.versionCounter + 1))))
      else Entries.get? server.scalers key :=
  get?_insert _ _ _ _

section Repeated

variable {now : Time} {config : Config} {scaler : Scaler} {server : Server} {key : Key}

/-- Without its scaler a reconcile does nothing. -/
theorem reconcile_of_missing (h : server.Undisturbed)
    (hnone : Entries.get? server.scalers key = none) :
    reconcile now config store key server = (.ok .done, server.noted [⟨.getScaler, key⟩]) := by
  have hget : store.getScaler key server = (.error .notFound, server.noted [⟨.getScaler, key⟩]) := by
    refine (h.getScaler key).trans ?_
    rw [find, hnone]
  rw [reconcile_of_error now config store (congrArg Prod.fst hget), hget]
  rfl

/-- With its scaler a reconcile reports what the examination came to. -/
theorem reconcile_of_advanced (now : Time) {records : List RequestRecord} (h : server.Undisturbed)
    (hstored : Entries.get? server.scalers scaler.metadata.key = some scaler)
    (hadvanced : Advanced records (server.noted [⟨.getScaler, scaler.metadata.key⟩])
      (examine config store scaler (server.noted [⟨.getScaler, scaler.metadata.key⟩])).2) :
    reconcile now config store scaler.metadata.key server =
      let found := examine config store scaler (server.noted [⟨.getScaler, scaler.metadata.key⟩])
      (.ok (found.1.outcome config),
        announcing scaler (found.1.condition config now) found.2) := by
  have hget : store.getScaler scaler.metadata.key server =
      (.ok scaler, server.noted [⟨.getScaler, scaler.metadata.key⟩]) := by
    refine (h.getScaler scaler.metadata.key).trans ?_
    rw [find, hstored]
  rw [reconcile_of_ok now config store (congrArg Prod.fst hget), hget, run_eq]
  generalize examine config store scaler _ = found at hadvanced ⊢
  have hpresent : Entries.get? found.2.scalers scaler.metadata.key = some scaler := by
    rw [hadvanced.scalers]
    exact hstored
  have hreport := hadvanced.undisturbed.report hpresent (found.1.condition config now)
  dsimp only [announce]
  rw [show store.updateStatus _ found.2 = _ from hreport]
  rfl

/-- A reconcile that follows a report repeats the examination before it, and reports the same. -/
theorem repeats_of_advanced {records : List RequestRecord} {finding : Finding} {examined : Server}
    (hadvanced : Advanced records (server.noted [⟨.getScaler, scaler.metadata.key⟩]) examined)
    (hagain : ∀ later : Server, later.Undisturbed → later.workloads = server.workloads →
      later.deployments = examined.deployments →
      examine config store scaler later = (finding, later.noted records)) (later : Time) :
    let first := announcing scaler (finding.condition config now) examined
    let second := reconcile later config store scaler.metadata.key first
    Repeats scaler.metadata.key server first second.2 (.ok (finding.outcome config)) second.1 := by
  let first := announcing scaler (finding.condition config now) examined
  let reported := (scaler.reporting (finding.condition config now)).withVersion
    (some (toString (examined.versionCounter + 1)))
  have hpresent : Entries.get? first.scalers reported.metadata.key = some reported :=
    (get?_announcing _ _ _ _).trans (if_pos rfl)
  have hundisturbed : first.Undisturbed :=
    ⟨hadvanced.undisturbed.faults, hadvanced.undisturbed.beforePatch⟩
  have hread := hundisturbed.noted [⟨.getScaler, reported.metadata.key⟩]
  have hexamine : examine config store reported
      (first.noted [⟨.getScaler, reported.metadata.key⟩]) =
        (finding, (first.noted [⟨.getScaler, reported.metadata.key⟩]).noted records) := by
    rw [examine_reporting]
    exact hagain _ hread hadvanced.workloads rfl
  have hsecond : reconcile later config store scaler.metadata.key first =
      (.ok (finding.outcome config), announcing reported (finding.condition config later)
        ((first.noted [⟨.getScaler, reported.metadata.key⟩]).noted records)) := by
    have hkept : Advanced records (first.noted [⟨.getScaler, reported.metadata.key⟩])
        (examine config store reported (first.noted [⟨.getScaler, reported.metadata.key⟩])).2 := by
      rw [hexamine]
      exact advanced_noted hread records
    have hrun := reconcile_of_advanced later hundisturbed hpresent hkept
    rwa [hexamine] at hrun
  have hsame : (finding.condition config now).equivalent (finding.condition config later) = true :=
    (Condition.equivalent_iff _ _).2 ⟨rfl, rfl, rfl, rfl⟩
  have hkept : reported.reporting (finding.condition config later) = reported :=
    scaler.reporting_reporting hsame _
  dsimp only
  rw [hsecond]
  refine ⟨rfl, ⟨[⟨.getScaler, scaler.metadata.key⟩] ++ records ++
    [⟨.updateStatus, scaler.metadata.key⟩], ?_, ?_⟩, rfl, rfl, fun other hother => ?_, ?_⟩
  · change examined.requests ++ _ = _
    rw [hadvanced.requests]
    simp only [noted, List.append_assoc]
  · change ((first.requests ++ _) ++ records) ++ _ = _
    simp only [List.append_assoc]
    rfl
  · exact (get?_announcing _ _ _ other).trans (if_neg fun hkey => hother hkey.symm)
  · have hlast := get?_announcing reported (finding.condition config later)
      ((first.noted [⟨.getScaler, reported.metadata.key⟩]).noted records) reported.metadata.key
    rw [if_pos rfl, hkept] at hlast
    exact (congrArg (Option.map (Scaler.withVersion none)) hlast).trans
      (congrArg (Option.map (Scaler.withVersion none)) hpresent).symm

end Repeated

/-- On a reachable server without faults and without another writer a second reconcile repeats the
first one, whatever that one came to. -/
theorem reconcile_repeats {server : Server} (hreachable : server.Reachable)
    (hfaults : server.faults = []) (hhook : server.beforePatch = none) (now later : Time)
    (config : Config) (key : Key) :
    let first := reconcile now config store key server
    let second := reconcile later config store key first.2
    Repeats key server first.2 second.2 first.1 second.1 := by
  have hundisturbed : server.Undisturbed := ⟨hfaults, hhook⟩
  dsimp only
  cases hstored : Entries.get? server.scalers key with
  | none =>
      rw [reconcile_of_missing hundisturbed hstored,
        reconcile_of_missing (hundisturbed.noted _) hstored]
      exact ⟨rfl, ⟨_, rfl, rfl⟩, rfl, rfl, fun _ _ => rfl, rfl⟩
  | some scaler =>
      obtain rfl : scaler.metadata.key = key := hreachable.keyed.scalers _ _ hstored
      have hreceived : SameObjects (server.noted [⟨.getScaler, scaler.metadata.key⟩]) server :=
        ⟨rfl, rfl, rfl, rfl, rfl, rfl⟩
      obtain ⟨records, hadvanced, hagain⟩ := examine_again config scaler
        (hundisturbed.noted [⟨.getScaler, scaler.metadata.key⟩])
        (hreachable.keyed.of_sameObjects hreceived)
      rw [reconcile_of_advanced now hundisturbed hstored hadvanced]
      exact repeats_of_advanced hadvanced hagain later

theorem reconcile_repeats_sampleServer :
    let first := reconcile default {} store sampleKey sampleServer
    let second := reconcile default {} store sampleKey first.2
    Repeats sampleKey sampleServer first.2 second.2 first.1 second.1 :=
  reconcile_repeats reachable_sampleServer rfl rfl default default {} sampleKey

end Reconcile

end ReplicaKeeper
