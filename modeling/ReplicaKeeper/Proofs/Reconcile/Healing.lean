import ReplicaKeeper.Proofs.Reconcile.Outlook
import ReplicaKeeper.Proofs.Reconcile.Overlay

/-!
# Reconciles that heal

Whatever faults are pending, nothing that a failing reconcile leaves behind stands in the way of the
next one: a server on which a scaler can be brought into effect stays one, `healthy_reconcile`.  A
reconcile on it succeeds or takes a fault, so that one of several reconciles succeeds as soon as
they are more than the faults, `reconcile_heals`.
-/

set_option autoImplicit false

namespace ReplicaKeeper

open Entries

/-! ## Deployments that are written alike -/

namespace Deployment

variable {left right : Deployment}

/-- What is written alike is read back alike. -/
theorem SameButVersion.wholeSeconds (h : left.SameButVersion right) (hcalendar : right.InCalendar) :
    left.InCalendar ∧
      (left.withVersion none).wholeSeconds = (right.withVersion none).wholeSeconds := by
  have hright := readsBack.ok ((inCalendar_withVersion none right).2 hcalendar)
  rw [← h] at hright
  by_cases hleft : left.InCalendar
  · have hread := readsBack.ok ((inCalendar_withVersion none left).2 hleft)
    exact ⟨hleft, Except.ok.inj (hread.symm.trans hright)⟩
  · have hread := readsBack.error (mt (inCalendar_withVersion none left).1 hleft)
    cases hread.symm.trans hright

theorem SameButVersion.owners (h : left.SameButVersion right) (hcalendar : right.InCalendar) :
    left.metadata.owners = right.metadata.owners := by
  have howners : (left.withVersion none).wholeSeconds.metadata.owners =
      (right.withVersion none).wholeSeconds.metadata.owners := by
    rw [(h.wholeSeconds hcalendar).2]
  exact howners

end Deployment

namespace Reconcile

open Server

section Desired

variable {config : Config} {scaler : Scaler} {owner : OwnerReference}
  {deployment wanted : Deployment}

/-- Owners and replicas hold no times. -/
theorem inCalendar_of_desired (h : desired scaler owner deployment = .ok wanted)
    (hcalendar : deployment.InCalendar) : wanted.InCalendar := by
  obtain ⟨owners, -, rfl⟩ := exists_owners_of_desired h
  refine ⟨hcalendar.1, fun spec hspec => ?_⟩
  obtain rfl := Option.some.inj hspec
  exact (inCalendar_withReplicas deployment.spec scaler.spec.replicaCount).2 hcalendar.2

/-- The owners of what is wanted are no rivals of the owner that is added. -/
theorem not_isRival_of_desired (h : desired scaler owner deployment = .ok wanted)
    (hunrivalled : ∀ other ∈ deployment.metadata.owners, ¬ owner.IsRival other) :
    ∀ other ∈ wanted.metadata.owners, ¬ owner.IsRival other := by
  obtain ⟨owners, hadded, rfl⟩ := exists_owners_of_desired h
  obtain ⟨-, -, -, rfl⟩ := (OwnerReference.addTo_eq_ok_iff _ _ _).1 hadded
  intro other hmem
  rcases OwnerReference.eq_or_mem_of_mem_place hmem with rfl | hold
  · exact other.not_isRival_self
  · exact hunrivalled other hold

end Desired

/-! ## Healthy servers -/

/-- A scaler can be brought into effect: it has a name and a uid, the workload is the one that it
points to, and the first candidate that is stored has no other controller. -/
structure HealthyWith (config : Config) (key : Key) (server : Server) (scaler : Scaler)
    (workload : Workload) (place : Key) (target : Deployment) : Prop where
  scaler_eq : Entries.get? server.scalers key = some scaler
  name : ∃ name, scaler.metadata.name = some name ∧ name ≠ ""
  uid : ∃ uid, scaler.metadata.uid = some uid ∧ uid ≠ ""
  workload_eq : Entries.get? server.workloads (workloadKey scaler) = some workload
  points : PointsTo scaler workload
  place_eq : server.target? config key = some place
  target_eq : Entries.get? server.deployments place = some target
  unrivalled : ∀ owner, scaler.ownerReference? = some owner →
    ∀ other ∈ target.metadata.owners, ¬ owner.IsRival other
  /-- Its times are moments of the calendar, as all are that have a text. -/
  calendar : target.InCalendar

/-- The scaler under a key can be brought into effect. -/
def Healthy (config : Config) (key : Key) (server : Server) : Prop :=
  ∃ scaler workload place target, HealthyWith config key server scaler workload place target

section Healthy

variable {config : Config} {key place : Key} {server : Server} {scaler : Scaler}
  {workload : Workload} {target : Deployment}

theorem HealthyWith.targetOf?_eq
    (h : HealthyWith config key server scaler workload place target) :
    server.targetOf? config scaler = some place := by
  have hplace := h.place_eq
  rw [target?, h.scaler_eq] at hplace
  exact hplace

/-- Without faults a healthy scaler is brought into effect. -/
theorem HealthyWith.outlook_eq (h : HealthyWith config key server scaler workload place target)
    (hkeyed : server.Keyed) (hhook : server.beforePatch = none) :
    server.outlook config scaler = .scaled := by
  obtain ⟨name, hname, hnonblank⟩ := h.name
  obtain ⟨uid, huid, hset⟩ := h.uid
  have howner := (scaler.ownerReference?_eq_some_iff _).2 ⟨name, uid, hname, huid, rfl⟩
  have hadded := (OwnerReference.addTo_eq_ok_iff _ target.metadata.owners _).2
    ⟨hset, hnonblank, fun _ => h.unrivalled _ howner, rfl⟩
  have howned := (target.withOwner_eq_ok_iff _ _).2 ⟨_, hadded, rfl⟩
  have hdesired : desired scaler _ target = .ok _ := desired_eq_ok_iff.2 ⟨_, howned, rfl⟩
  have hpatched := (patched_patchTo_eq_ok_iff config hdesired place _).2
    ⟨inCalendar_of_desired hdesired h.calendar, hkeyed.deployments hhook _ _ h.target_eq, rfl⟩
  rw [outlook_of_target h.workload_eq h.points h.targetOf?_eq h.target_eq, prospect, howner]
  dsimp only
  rw [hdesired]
  dsimp only
  rw [hpatched]

end Healthy

/-! ## What a reconcile leaves behind -/

/-- Two scalers that ask for the same, under the same name. -/
structure SameWish (old new : Scaler) : Prop where
  name : new.metadata.name = old.metadata.name
  ns : new.metadata.ns = old.metadata.ns
  uid : new.metadata.uid = old.metadata.uid
  spec : new.spec = old.spec

theorem sameWish_of_rereported {old new : Scaler} (h : old.Rereported new) : SameWish old new := by
  have hfield {α : Type} (field : ObjectMeta → α) :
      field (new.withVersion none).metadata = field (old.withVersion none).metadata := by
    rw [h.metadata]
  exact ⟨hfield ObjectMeta.name, hfield ObjectMeta.ns, hfield ObjectMeta.uid, h.spec⟩

namespace SameWish

variable {config : Config} {old new : Scaler} {server later : Server} (h : SameWish old new)

include h

theorem workloadKey_eq : workloadKey new = workloadKey old := by
  rw [workloadKey, workloadKey, namespaceOf, namespaceOf, h.ns, h.spec]

theorem ownerReference?_eq : new.ownerReference? = old.ownerReference? := by
  rw [Scaler.ownerReference?, Scaler.ownerReference?, h.name, h.uid]

theorem pointsTo {workload : Workload} (hpoints : PointsTo old workload) :
    PointsTo new workload := by
  obtain ⟨uid, hset, hsame⟩ := hpoints
  exact ⟨uid, h.spec ▸ hset, hsame⟩

theorem candidateKeys_eq (hworkloads : later.workloads = server.workloads) :
    later.candidateKeys config new = server.candidateKeys config old := by
  have hcandidates : candidateKey new = candidateKey old := by
    funext candidate
    rw [candidateKey, candidateKey, namespaceOf, namespaceOf, h.ns]
  have hintended : isIntended new = isIntended old := by
    funext workload
    rw [isIntended, isIntended, h.spec]
  rw [candidateKeys, candidateKeys, hworkloads, h.workloadKey_eq, hcandidates, hintended]

end SameWish

section Effects

variable {config : Config} {key place : Key} {before after : Server} {scaler : Scaler}
  {workload : Workload} {target : Deployment} {calls : List StoreCall}
  {result : Except ReconcileError Outcome}

theorem Effect.sameWish (h : Effect config key calls before after result)
    (hscaler : Entries.get? before.scalers key = some scaler) :
    ∃ new, Entries.get? after.scalers key = some new ∧ SameWish scaler new := by
  rcases h.scaler with hkept | ⟨old, new, hold, hnew, hrereported⟩
  · exact ⟨scaler, hkept.trans hscaler, rfl, rfl, rfl, rfl⟩
  · obtain rfl := Option.some.inj (hold.symm.trans hscaler)
    exact ⟨new, hnew, sameWish_of_rereported hrereported⟩

/-- Deployments stay or are scaled, which a healthy scaler can stand. -/
theorem HealthyWith.target_after
    (h : HealthyWith config key before scaler workload place target)
    (heffect : Effect config key calls before after result)
    (hread : ∀ read rest, calls = .gotScaler key (.ok read) :: rest → read = scaler) :
    (∀ other, contains after.deployments other = contains before.deployments other) ∧
      ∃ left, Entries.get? after.deployments place = some left ∧ left.InCalendar ∧
        ∀ owner, scaler.ownerReference? = some owner →
          ∀ other ∈ left.metadata.owners, ¬ owner.IsRival other := by
  rcases heffect.deployments with hkept |
    ⟨read, searched, report, chosen, fetched, changed, owner, -, hcalls, hscaling⟩
  · rw [hkept]
    exact ⟨fun _ => rfl, target, h.target_eq, h.calendar, h.unrivalled⟩
  · obtain rfl : read = scaler := hread read _ hcalls
    refine ⟨fun other => ?_, ?_⟩
    · by_cases hother : other = candidateKey read chosen
      · subst hother
        rw [contains, hscaling.changed_eq, contains, hscaling.fetched_eq]
        rfl
      · rw [contains, hscaling.others other hother, contains]
    · by_cases hplace : place = candidateKey read chosen
      · subst hplace
        obtain rfl : fetched = target :=
          Option.some.inj (hscaling.fetched_eq.symm.trans h.target_eq)
        obtain ⟨owned, howned, hsame⟩ := hscaling.wanted
        have hdesired :
            desired read owner fetched = .ok (owned.withReplicas read.spec.replicaCount) :=
          desired_eq_ok_iff.2 ⟨owned, howned, rfl⟩
        have hcalendar := inCalendar_of_desired hdesired h.calendar
        refine ⟨changed, hscaling.changed_eq, (hsame.wholeSeconds hcalendar).1,
          fun another hanother => ?_⟩
        obtain rfl := Option.some.inj (hscaling.owner_eq.symm.trans hanother)
        rw [hsame.owners hcalendar]
        exact not_isRival_of_desired hdesired (h.unrivalled owner hanother)
      · refine ⟨target, ?_, h.calendar, h.unrivalled⟩
        rw [hscaling.others place hplace]
        exact h.target_eq

theorem HealthyWith.of_effect (h : HealthyWith config key before scaler workload place target)
    (heffect : Effect config key calls before after result)
    (hread : ∀ read rest, calls = .gotScaler key (.ok read) :: rest → read = scaler) :
    ∃ new left, HealthyWith config key after new workload place left := by
  obtain ⟨new, hnew, hwish⟩ := heffect.sameWish h.scaler_eq
  obtain ⟨hstored, left, hleft, hcalendar, hunrivalled⟩ := h.target_after heffect hread
  refine ⟨new, left, hnew, ?_, ?_, ?_, hwish.pointsTo h.points, ?_, hleft, ?_, hcalendar⟩
  · rw [hwish.name]
    exact h.name
  · rw [hwish.uid]
    exact h.uid
  · rw [heffect.workloads, hwish.workloadKey_eq]
    exact h.workload_eq
  · have hcontains : (fun key => contains after.deployments key) =
        fun key => contains before.deployments key := funext hstored
    rw [target?, hnew]
    dsimp only [Option.bind]
    rw [targetOf?, hwish.candidateKeys_eq heffect.workloads, hcontains]
    exact h.targetOf?_eq
  · rw [hwish.ownerReference?_eq]
    exact hunrivalled

end Effects

/-- The scaler that a reconcile reads is the stored one. -/
theorem read_of_calls {now : Time} {config : Config} {key : Key} {server : Server}
    {scaler : Scaler} (hscaler : Entries.get? server.scalers key = some scaler) :
    ∀ read rest, calls now config store key server = .gotScaler key (.ok read) :: rest →
      read = scaler := by
  intro read rest hcalls
  have hleads := reconcile_leads now config store key server
  rw [hcalls] at hleads
  have hanswer := hleads.answer_of_gotScaler
  rw [show store.getScaler key server = _ from server.getScaler_eq key] at hanswer
  exact Option.some.inj ((get?_of_answerOf hanswer).symm.trans hscaler)

/-- Whatever faults are pending, a healthy server stays healthy. -/
theorem healthy_reconcile {config : Config} {key : Key} {server : Server}
    (hreachable : server.Reachable) (hhook : server.beforePatch = none)
    (h : Healthy config key server) (now : Time) :
    Healthy config key (reconcile now config store key server).2 := by
  obtain ⟨scaler, workload, place, target, hhealthy⟩ := h
  have heffect := reconcile_effect hreachable hhook now config key
  obtain ⟨new, left, hafter⟩ := hhealthy.of_effect heffect (read_of_calls hhealthy.scaler_eq)
  exact ⟨new, workload, place, left, hafter⟩

/-! ## Success -/

/-- A reconcile with the given calls succeeded: it patched the first candidate that is stored, and
then it stored a success. -/
structure Healed (config : Config) (key : Key) (calls : List StoreCall) (before after : Server)
    (result : Except ReconcileError Outcome) : Prop where
  result_eq : result = .ok .done
  recorded : ∃ scaler located place patch changed written stored condition,
    calls = .gotScaler key (.ok scaler) ::
      (located ++ [.sent (.patchDeployment place patch) (.patched (.ok changed))]) ++
        [.sent (.updateStatus written) (.statusUpdated (.ok stored))] ∧
    before.target? config key = some place ∧
    Entries.get? after.deployments place = some changed ∧
    Entries.get? after.scalers key = some stored ∧
    stored.synced? = some condition ∧ condition.status = .success

section Success

variable {config : Config} {key place : Key} {server : Server} {scaler : Scaler}
  {workload : Workload} {target : Deployment}

/-- A trail that no fault has hit ends in success on a healthy server. -/
theorem HealthyWith.healed_of_trail
    (h : HealthyWith config scaler.metadata.key server scaler workload place target)
    (hkeyed : server.Keyed) (hundisturbed : server.Undisturbed) {now : Time}
    {searched : List StoreCall} {finding : Finding} {answer : Except ApiError Scaler}
    {after : Server} (hcourse : Course config scaler searched finding)
    (hleads : store.Leads server
      (.gotScaler scaler.metadata.key (.ok scaler) :: searched ++
        [.sent (.updateStatus (scaler.reporting (finding.condition config now)))
          (.statusUpdated answer)]) after) :
    Healed config scaler.metadata.key
      (.gotScaler scaler.metadata.key (.ok scaler) :: searched ++
        [.sent (.updateStatus (scaler.reporting (finding.condition config now)))
          (.statusUpdated answer)])
      server after ((finding.conclude config answer).mapError .stepFailed) := by
  obtain ⟨⟨hfinding, ⟨between, hsearch, hdeployments⟩, version, rfl, hstored⟩, -⟩ :=
    foretold_of_trail hundisturbed hkeyed h.scaler_eq hcourse hleads
  rw [h.outlook_eq hkeyed hundisturbed.beforePatch] at hfinding
  subst hfinding
  obtain ⟨condition, hsynced, hstatus, -, -⟩ := Finding.synced?_reporting config now scaler .scaled
  have hnoted := hundisturbed.noted [⟨.getScaler, scaler.metadata.key⟩]
  have hnotedKeyed := hkeyed.noted [⟨.getScaler, scaler.metadata.key⟩]
  cases hcourse with
  | @scaled located fetched wanted changed owner hlocates howner hdesired =>
      obtain ⟨read, hread, hlast⟩ := Store.Leads.append_iff.1 hsearch
      obtain ⟨found, hfound⟩ := located_of_locates hnoted hnotedKeyed hlocates hread
      have hpatch := patchDeployment_of_send (Store.Leads.sent_iff.1 hlast)
      obtain ⟨_, _, _, -, -, -, hchanged, -⟩ := exists_met (congrArg Prod.fst hpatch)
      rw [hpatch, ← hdeployments] at hchanged
      refine ⟨rfl, scaler, located, _, _, changed, _, _, condition, rfl, ?_, hchanged, hstored,
        hsynced, hstatus⟩
      rw [hfound.targetKey_eq, target?, h.scaler_eq]
      exact hfound.target_eq

/-- Faults are no part of health. -/
theorem HealthyWith.withFaults (h : HealthyWith config key server scaler workload place target)
    (faults : List (Operation × ApiError)) :
    HealthyWith config key (server.withFaults faults) scaler workload place target :=
  ⟨h.scaler_eq, h.name, h.uid, h.workload_eq, h.points, h.place_eq, h.target_eq, h.unrivalled,
    h.calendar⟩

/-- On a healthy server a reconcile succeeds, or it takes a fault. -/
theorem healed_or_fewer (hreachable : server.Reachable) (hhook : server.beforePatch = none)
    (h : Healthy config key server) (now : Time) :
    Healed config key (calls now config store key server) server
        (reconcile now config store key server).2 (reconcile now config store key server).1 ∨
      (reconcile now config store key server).2.faults.length < server.faults.length := by
  obtain ⟨scaler, workload, place, target, hhealthy⟩ := h
  have hquiet : (server.withFaults []).Undisturbed := ⟨rfl, hhook⟩
  have hkeyed : (server.withFaults []).Keyed :=
    hreachable.keyed.of_sameObjects (sameObjects_withFaults [] server)
  have hleads : store.Leads ((server.withFaults []).withFaults server.faults)
      (calls now config store key server) (reconcile now config store key server).2 :=
    reconcile_leads now config store key server
  rcases leads_withFaults hquiet.faults hleads with hfewer | ⟨after, hspared, hafter⟩
  · exact .inr hfewer
  · left
    cases hread : (store.getScaler key server).1 with
    | error error =>
        -- The answer would be the scaler, as no fault has hit the call.
        rw [calls_of_error now config store hread] at hspared
        have hanswer := hspared.answer_of_gotScaler
        rw [show store.getScaler key (server.withFaults []) = _ from hquiet.getScaler key,
          (find_eq_ok_iff _ _ _).2 (hhealthy.withFaults []).scaler_eq] at hanswer
        cases hanswer
    | ok read =>
        obtain ⟨searched, finding, answer, hcourse, hcalls, hresult⟩ :=
          reconcile_course now config store hread
        obtain rfl : read = scaler := read_of_calls hhealthy.scaler_eq read _ hcalls
        obtain rfl : read.metadata.key = key := hreachable.keyed.scalers _ _ hhealthy.scaler_eq
        rw [hcalls] at hspared ⊢
        rw [hresult, hafter]
        have hhealed := (hhealthy.withFaults []).healed_of_trail hkeyed hquiet hcourse hspared
        exact ⟨hhealed.result_eq, hhealed.recorded⟩

end Success

/-! ## Reconciles in a row -/

/-- The server after reconciles of one scaler at several moments. -/
def reconcileAll (config : Config) (key : Key) (moments : List Time) (server : Server) : Server :=
  moments.foldl (fun server now => (reconcile now config store key server).2) server

theorem beforePatch_reconcile {server : Server} (hhook : server.beforePatch = none) (now : Time)
    (config : Config) (key : Key) :
    (reconcile now config store key server).2.beforePatch = none :=
  reconcile_keeps (P := fun world : Server => world.beforePatch = none)
    (fun key world h => (sameObjects_getScaler key world).beforePatch.trans h)
    (fun request world h => (beforePatch_send request world).trans h) now config key hhook

/-- One reconcile of several succeeds as soon as they are more than the faults. -/
theorem exists_healed {config : Config} {key : Key} {server : Server}
    (hreachable : server.Reachable) (hhook : server.beforePatch = none)
    (h : Healthy config key server) {moments : List Time}
    (hmany : server.faults.length < moments.length) :
    ∃ earlier now later, moments = earlier ++ now :: later ∧
      let reached := reconcileAll config key earlier server
      Healed config key (calls now config store key reached) reached
        (reconcile now config store key reached).2 (reconcile now config store key reached).1 := by
  induction moments generalizing server with
  | nil => exact absurd hmany (Nat.not_lt_zero _)
  | cons now moments ih =>
      rcases healed_or_fewer hreachable hhook h now with hhealed | hfewer
      · exact ⟨[], now, moments, rfl, hhealed⟩
      · rw [List.length_cons] at hmany
        obtain ⟨earlier, moment, later, rfl, hhealed⟩ :=
          ih (hreachable.reconcile now config key) (beforePatch_reconcile hhook now config key)
            (healthy_reconcile hreachable hhook h now) (by omega)
        exact ⟨now :: earlier, moment, later, rfl, hhealed⟩

/-- How reconciles get a healthy server over its faults. -/
structure Heals (config : Config) (key : Key) (server : Server) : Prop where
  /-- A reconcile at any moment leaves a healthy server, and it succeeds or takes a fault. -/
  once : ∀ now, Healthy config key (reconcile now config store key server).2 ∧
    (Healed config key (calls now config store key server) server
        (reconcile now config store key server).2 (reconcile now config store key server).1 ∨
      (reconcile now config store key server).2.faults.length < server.faults.length)
  /-- Of more reconciles in a row than there are faults one succeeds. -/
  eventually : ∀ moments : List Time, server.faults.length < moments.length →
    ∃ earlier now later, moments = earlier ++ now :: later ∧
      let reached := reconcileAll config key earlier server
      Healed config key (calls now config store key reached) reached
        (reconcile now config store key reached).2 (reconcile now config store key reached).1

/-- Whatever faults are pending, reconciles of a scaler that can be brought into effect do so. -/
theorem reconcile_heals {config : Config} {key : Key} {server : Server}
    (hreachable : server.Reachable) (hhook : server.beforePatch = none)
    (h : Healthy config key server) : Heals config key server := by
  refine ⟨fun now => ⟨?_, ?_⟩, fun moments hmany => ?_⟩
  · exact healthy_reconcile hreachable hhook h now
  · exact healed_or_fewer hreachable hhook h now
  · exact exists_healed hreachable hhook h hmany

/-- The sample server when the next request for a Deployment finds none, and the next report is
refused. -/
def sampleFaulty : Server :=
  (sampleServer.injectFault .getDeployment .notFound).injectFault .updateStatus .conflict

theorem reachable_sampleFaulty : sampleFaulty.Reachable :=
  (reachable_sampleServer.after (.injectFault .getDeployment .notFound)).after
    (.injectFault .updateStatus .conflict)

theorem healthy_sampleFaulty : Healthy {} sampleKey sampleFaulty := by
  refine ⟨_, _, ⟨"shop", "front"⟩, _, rfl, ⟨"web", rfl, by decide⟩, ⟨"scaler", rfl, by decide⟩, rfl,
    ⟨"workload", rfl, rfl⟩, rfl, rfl, ?_, ?_⟩
  · intro owner howner other hmem
    cases hmem
  · decide

theorem reconcile_heals_sampleFaulty :
    sampleFaulty.faults.length = 2 ∧ Heals {} sampleKey sampleFaulty :=
  ⟨rfl, reconcile_heals reachable_sampleFaulty rfl healthy_sampleFaulty⟩

end Reconcile

end ReplicaKeeper
