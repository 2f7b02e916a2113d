import ReplicaKeeper.Proofs.Server.Issuing

/-!
# Objects keep their identity

On a server without another writer before the patches every object is stored under its own namespace
and name, and it has a uid, `Identified`.  No request can change that: a patch, whatever JSON it is,
is refused or leaves key and uid as they are, `PatchKeeps`, and a report writes nothing but the
status, `StatusKeeps`.  The version after a write comes from the counter of the server.
`keepsIdentity_after` says so for every history.
-/

set_option autoImplicit false

namespace ReplicaKeeper

open Entries

/-! ## Identified objects -/

def Place.key : Place → Key
  | scaler key | workload key | deployment key => key

def Stored.metadata : Stored → ObjectMeta
  | scaler object => object.metadata
  | workload object => object.metadata
  | deployment object => object.metadata

namespace Server

/-- Every object is stored under its own namespace and name, and it has a uid. -/
def Identified (server : Server) : Prop :=
  ∀ place object, server.stored? place = some object →
    object.metadata.key = place.key ∧ ∃ uid, object.metadata.uid = some uid

theorem identified_empty : Identified {} := by
  intro place object hobject
  cases place <;> cases hobject

section Places

variable {before after : Server}

/-- Objects stay identified while they do nothing but go. -/
theorem Identified.of_stood (h : before.Identified)
    (hstood : ∀ place object, after.stored? place = some object →
      before.stored? place = some object) : after.Identified := by
  intro place object hobject
  exact h place object (hstood place object hobject)

theorem Identified.of_sameObjects (h : before.Identified) (hsame : SameObjects after before) :
    after.Identified := by
  refine h.of_stood fun place object hobject => ?_
  rw [← hsame.stored?_eq]
  exact hobject

/-- Objects stay identified when one that is identified is put into its place. -/
theorem Identified.put (h : before.Identified) (place : Place) (object : Stored)
    (hkey : object.metadata.key = place.key) (huid : ∃ uid, object.metadata.uid = some uid)
    (hplaces : ∀ other, after.stored? other =
      if place = other then some object else before.stored? other) : after.Identified := by
  intro other found hfound
  rw [hplaces] at hfound
  split at hfound
  · next hother =>
    cases hfound
    exact ⟨hkey.trans (congrArg Place.key hother), huid⟩
  · exact h other found hfound

end Places

/-! ## Patches -/

/-- What comes of a patch to the Deployment under a key, whatever the patch says. -/
inductive PatchKeeps (key : Key) (before : Server) : Except ApiError Deployment → Server → Prop
  /-- The patch fails, and all objects stay. -/
  | refused {after : Server} (error : ApiError) (hsame : SameObjects after before) :
      PatchKeeps key before (.error error) after
  /-- The patch has no effect, and the Deployment is answered with its version. -/
  | unchanged {after : Server} {current : Deployment}
      (hcurrent : before.stored? (.deployment key) = some (.deployment current))
      (hsame : SameObjects after before) : PatchKeeps key before (.ok current) after
  /-- The Deployment is another one afterwards, under the same key, with the same uid and with the
  next version of the server.  No other object changes. -/
  | changed {after : Server} {current answer : Deployment}
      (hcurrent : before.stored? (.deployment key) = some (.deployment current))
      (hother : answer.withVersion current.metadata.resourceVersion ≠ current)
      (hkey : answer.metadata.key = current.metadata.key)
      (huid : answer.metadata.uid = current.metadata.uid)
      (hversion : answer.metadata.resourceVersion = some (toString (before.versionCounter + 1)))
      (hcounter : after.versionCounter = before.versionCounter + 1)
      (hplaces : ∀ other, after.stored? other =
        if .deployment key = other then some (.deployment answer) else before.stored? other) :
      PatchKeeps key before (.ok answer) after

section Patches

variable {server : Server}

theorem patchDeployment_keeps (hidentified : server.Identified) (hhook : server.beforePatch = none)
    (key : Key) (patch : Json) :
    PatchKeeps key server (server.patchDeployment key patch).1
      (server.patchDeployment key patch).2 := by
  have hsame := sameObjects_receive .patchDeployment key server
  have hnone : (server.receive .patchDeployment key).2.beforePatch = none :=
    hsame.beforePatch.trans hhook
  have hanswered := server.patchDeployment_answered key patch
  generalize (server.patchDeployment key patch).1 = answer,
    (server.patchDeployment key patch).2 = last at hanswered ⊢
  cases hanswered with
  | refused error => exact .refused error hsame
  | rejected hstored hrejected =>
      rw [runBeforePatch_of_none key hnone]
      exact .refused _ hsame
  | @accepted current merged hstored hmerged =>
      rw [runBeforePatch_of_none key hnone] at hmerged ⊢
      obtain ⟨hkey, huid, hversion⟩ := metadata_of_patched hmerged
      have hcurrent : server.stored? (.deployment key) = some (.deployment current) := by
        rw [← hsame.stored?_eq]
        exact congrArg (Option.map Stored.deployment) hstored
      have hcurrentKey : current.metadata.key = key := (hidentified _ _ hcurrent).1
      unfold storePatched
      split
      · next hunchanged =>
        subst hunchanged
        exact .unchanged hcurrent hsame
      · next hother =>
        refine .changed hcurrent ?_ (hkey.trans hcurrentKey.symm) huid ?_ ?_ fun other => ?_
        · rw [← hversion]
          exact hother
        · exact congrArg (fun n => some (toString (n + 1))) hsame.versionCounter
        · exact congrArg (· + 1) hsame.versionCounter
        · rw [← hsame.stored?_eq]
          refine stored?_insert_deployment ?_ ?_ ?_ other <;> rfl

/-- A patch leaves all objects identified. -/
theorem Identified.patchDeployment (h : server.Identified) (hhook : server.beforePatch = none)
    (key : Key) (patch : Json) : (server.patchDeployment key patch).2.Identified := by
  have hkeeps := patchDeployment_keeps h hhook key patch
  generalize (server.patchDeployment key patch).1 = answer,
    (server.patchDeployment key patch).2 = last at hkeeps ⊢
  cases hkeeps with
  | refused error hsame => exact h.of_sameObjects hsame
  | unchanged hcurrent hsame => exact h.of_sameObjects hsame
  | @changed _ current answer hcurrent hother hkey huid hversion hcounter hplaces =>
      obtain ⟨hcurrentKey, uid, hcurrentUid⟩ := h _ _ hcurrent
      exact h.put (.deployment key) (.deployment answer) (hkey.trans hcurrentKey)
        ⟨uid, huid.trans hcurrentUid⟩ hplaces

end Patches

/-! ## Reports -/

/-- What comes of a status write, whatever scaler is sent. -/
inductive StatusKeeps (sent : Scaler) (before : Server) : Except ApiError Scaler → Server → Prop
  /-- The write fails, and all objects stay. -/
  | refused {after : Server} (error : ApiError) (hsame : SameObjects after before) :
      StatusKeeps sent before (.error error) after
  /-- The status is the one that was sent, the version is the next one of the server, and
  everything else is as it was. -/
  | written {after : Server} {current answer : Scaler}
      (hcurrent : before.stored? (.scaler sent.metadata.key) = some (.scaler current))
      (hspec : answer.spec = current.spec) (hstatus : answer.status = sent.status)
      (hmetadata : answer.metadata =
        { current.metadata with resourceVersion := some (toString (before.versionCounter + 1)) })
      (hcounter : after.versionCounter = before.versionCounter + 1)
      (hplaces : ∀ other, after.stored? other =
        if .scaler sent.metadata.key = other then some (.scaler answer)
        else before.stored? other) :
      StatusKeeps sent before (.ok answer) after

section Reports

variable {server : Server}

theorem updateStatus_keeps (server : Server) (sent : Scaler) :
    StatusKeeps sent server (server.updateStatus sent).1 (server.updateStatus sent).2 := by
  have hsame := sameObjects_receive .updateStatus sent.metadata.key server
  have hanswered := server.updateStatus_answered sent
  generalize (server.updateStatus sent).1 = answer, (server.updateStatus sent).2 = last
    at hanswered ⊢
  cases hanswered with
  | refused error => exact .refused error hsame
  | @accepted current hcurrent hmay =>
      have hstored : server.stored? (.scaler sent.metadata.key) = some (.scaler current) := by
        rw [← hsame.stored?_eq]
        exact congrArg (Option.map Stored.scaler) hcurrent
      refine .written hstored rfl rfl ?_ ?_ fun other => ?_
      · unfold reported
        rw [hsame.versionCounter]
      · exact congrArg (· + 1) hsame.versionCounter
      · rw [← hsame.stored?_eq]
        refine stored?_insert_scaler ?_ ?_ ?_ other <;> rfl

/-- A status write leaves all objects identified. -/
theorem Identified.updateStatus (h : server.Identified) (sent : Scaler) :
    (server.updateStatus sent).2.Identified := by
  have hkeeps := server.updateStatus_keeps sent
  generalize (server.updateStatus sent).1 = answer, (server.updateStatus sent).2 = last
    at hkeeps ⊢
  cases hkeeps with
  | refused error hsame => exact h.of_sameObjects hsame
  | @written _ current answer hcurrent hspec hstatus hmetadata hcounter hplaces =>
      obtain ⟨hkey, uid, huid⟩ := h _ _ hcurrent
      have hsame : answer.metadata.key = current.metadata.key ∧
          answer.metadata.uid = current.metadata.uid := by
        rw [hmetadata]
        exact ⟨rfl, rfl⟩
      exact h.put (.scaler sent.metadata.key) (.scaler answer) (hsame.1.trans hkey)
        ⟨uid, hsame.2.trans huid⟩ hplaces

end Reports

/-! ## Histories -/

section Histories

variable {server : Server}

theorem uid_stamp (metadata : ObjectMeta) (server : Server) :
    ∃ uid, (server.stamp metadata).1.uid = some uid := by
  unfold stamp
  cases metadata.uid with
  | none => exact ⟨_, rfl⟩
  | some uid => exact ⟨uid, rfl⟩

theorem Identified.send (h : server.Identified) (hhook : server.beforePatch = none)
    (request : Request) : (store.send request server).2.Identified := by
  cases request with
  | getWorkload key => exact h.of_sameObjects (sameObjects_getWorkload key server)
  | getDeployment key => exact h.of_sameObjects (sameObjects_getDeployment key server)
  | patchDeployment key patch => exact h.patchDeployment hhook key patch
  | updateStatus sent => exact h.updateStatus sent

/-- Whatever a client does, all objects stay identified. -/
theorem Identified.run (h : server.Identified) (hhook : server.beforePatch = none) (deed : Deed) :
    (deed.run server).Identified := by
  cases deed with
  | createScaler scaler =>
      let created := (server.createScaler scaler).1
      exact h.put (.scaler created.metadata.key) (.scaler created) rfl
        (uid_stamp scaler.metadata server) (stored?_insert_scaler
        (congrArg (insert _ _) (scalers_stamp scaler.metadata server))
        (workloads_stamp server scaler.metadata) (deployments_stamp scaler.metadata server))
  | createWorkload workload =>
      let created := (server.createWorkload workload).1
      exact h.put (.workload created.metadata.key) (.workload created) rfl
        (uid_stamp workload.metadata server) (stored?_insert_workload
        (scalers_stamp workload.metadata server)
        (congrArg (insert _ _) (workloads_stamp server workload.metadata))
        (deployments_stamp workload.metadata server))
  | createDeployment deployment =>
      let created := (server.createDeployment deployment).1
      exact h.put (.deployment created.metadata.key) (.deployment created) rfl
        (uid_stamp deployment.metadata server) (stored?_insert_deployment
        (scalers_stamp deployment.metadata server) (workloads_stamp server deployment.metadata)
        (congrArg (insert _ _) (deployments_stamp deployment.metadata server)))
  | deleteScaler key =>
      refine h.of_stood fun place object hobject => ?_
      change (server.deleteScaler key).2.stored? place = some object at hobject
      rw [stored?_deleteScaler] at hobject
      split at hobject
      · cases hobject
      · exact hobject
  | readScaler key => exact h.of_sameObjects (sameObjects_getScaler key server)
  | send request => exact h.send hhook request
  | injectFault | onBeforePatch =>
      refine h.of_stood fun place object hobject => ?_
      cases place <;> exact hobject

/-- All objects are identified, and no other writer can change that. -/
structure Guarded (server : Server) : Prop where
  identified : server.Identified
  noWriter : server.beforePatch = none

theorem Guarded.run (h : server.Guarded) {act : Act}
    (hact : ∀ hook, act ≠ .client (.onBeforePatch hook)) : (act.run server).Guarded := by
  cases act with
  | client deed =>
      have hdeed : ∀ hook, deed ≠ .onBeforePatch hook := by
        rintro hook rfl
        exact hact hook rfl
      exact ⟨h.identified.run h.noWriter deed, (beforePatch_run server hdeed).trans h.noWriter⟩
  | reconcile now config key =>
      refine Reconcile.reconcile_keeps (P := Guarded) (fun key world h => ?_)
        (fun request world h => ?_) now config key h
      · have hsame := sameObjects_getScaler key world
        exact ⟨h.identified.of_sameObjects hsame, hsame.beforePatch.trans h.noWriter⟩
      · exact ⟨h.identified.send h.noWriter request,
          (beforePatch_send request world).trans h.noWriter⟩

theorem Guarded.foldl {acts : List Act}
    (hacts : ∀ hook, Act.client (.onBeforePatch hook) ∉ acts) (h : server.Guarded) :
    (acts.foldl Act.run server).Guarded := by
  induction acts generalizing server with
  | nil => exact h
  | cons act acts ih =>
      refine ih (fun hook hmem => hacts hook (List.mem_cons_of_mem act hmem)) (h.run ?_)
      rintro hook rfl
      exact hacts hook List.mem_cons_self

end Histories

/-- What identifies the objects at the end of a history, and what requests can do to it. -/
structure KeepsIdentity (acts : List Act) : Prop where
  /-- Every object is stored under its own namespace and name, and it has a uid. -/
  identified : (after acts).Identified
  patched : ∀ key patch, PatchKeeps key (after acts) ((after acts).patchDeployment key patch).1
    ((after acts).patchDeployment key patch).2
  reported : ∀ sent, StatusKeeps sent (after acts) ((after acts).updateStatus sent).1
    ((after acts).updateStatus sent).2
  /-- No object has the version that a write draws next. -/
  fresh : ∀ place object, (after acts).stored? place = some object →
    object.version? ≠ some (toString ((after acts).versionCounter + 1))

/-- Without another writer before the patches, objects keep their identity in every history. -/
theorem keepsIdentity_after {acts : List Act}
    (hacts : ∀ hook, Act.client (.onBeforePatch hook) ∉ acts) : KeepsIdentity acts := by
  have hguarded : (after acts).Guarded :=
    Guarded.foldl hacts ⟨identified_empty, rfl⟩
  refine ⟨hguarded.identified,
    patchDeployment_keeps hguarded.identified hguarded.noWriter,
    (after acts).updateStatus_keeps, fun place object hobject => ?_⟩
  have hdrawn := (issuing_after acts).numbered.drawn place object hobject
  exact hdrawn.ne ⟨_, Nat.lt_succ_self _, Nat.le_refl _, rfl⟩

theorem keepsIdentity_sampleDeeds :
    (∀ hook, Act.client (.onBeforePatch hook) ∉
      sampleDeeds.map Act.client ++ [.reconcile default {} sampleKey]) ∧
    KeepsIdentity (sampleDeeds.map Act.client ++ [.reconcile default {} sampleKey]) := by
  have hacts : ∀ hook, Act.client (.onBeforePatch hook) ∉
      sampleDeeds.map Act.client ++ [.reconcile default {} sampleKey] := by
    intro hook
    simp [sampleDeeds]
  exact ⟨hacts, keepsIdentity_after hacts⟩

end Server

end ReplicaKeeper
