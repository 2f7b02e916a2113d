import ReplicaKeeper.Proofs.Object.Rereading
import ReplicaKeeper.Proofs.Server.Requests

/-!
# What a patch meets, and what it leaves

A patch meets the stored Deployment, after another writer before the patches has changed it, `met?`.
`patchDeployment_of_met` and `exists_met` say that the answer and the stored Deployment depend on
that alone; `patchDeployment_cases` is the case without another writer.
-/

set_option autoImplicit false

namespace ReplicaKeeper.Server

open Entries

/-! ## Another writer before the patch -/

section Writer

variable {server : Server} {key : Key} {stored : Deployment}

/-- A patch meets what is stored then. -/
theorem get?_runBeforePatch (hstored : get? server.deployments key = some stored) (other : Key) :
    get? (server.runBeforePatch key stored).2.deployments other =
      if key = other then some (server.runBeforePatch key stored).1
      else get? server.deployments other := by
  unfold runBeforePatch
  cases server.beforePatch with
  | none =>
      dsimp only
      split
      · next hkey =>
        subst hkey
        exact hstored
      · rfl
  | some hook => exact get?_insert _ _ _ _

theorem runBeforePatch_of_sameObjects {left right : Server} (h : SameObjects left right) (key : Key)
    (stored : Deployment) :
    (left.runBeforePatch key stored).1 = (right.runBeforePatch key stored).1 := by
  unfold runBeforePatch nextVersion
  rw [h.beforePatch, h.versionCounter]
  cases right.beforePatch <;> rfl

theorem beforePatch_runBeforePatch (server : Server) (key : Key) (stored : Deployment) :
    (server.runBeforePatch key stored).2.beforePatch = server.beforePatch := by
  unfold runBeforePatch
  cases hhook : server.beforePatch with
  | none => exact hhook
  | some hook => exact hhook

/-- Another writer leaves a fresh version. -/
theorem resourceVersion_runBeforePatch {hook : Deployment → Deployment}
    (h : server.beforePatch = some hook) :
    (server.runBeforePatch key stored).1.metadata.resourceVersion =
      some (toString (server.versionCounter + 1)) := by
  unfold runBeforePatch
  rw [h]
  rfl

end Writer

/-! ## Patches without another writer -/

/-- Two servers that differ in the Deployment under one key at most, which has become `changed`. -/
structure Changed (key : Key) (changed : Deployment) (before after : Server) : Prop where
  scalers : after.scalers = before.scalers
  workloads : after.workloads = before.workloads
  beforePatch : after.beforePatch = before.beforePatch
  deployment : get? after.deployments key = some changed
  others : ∀ other, other ≠ key → get? after.deployments other = get? before.deployments other

theorem Changed.of_sameObjects {key : Key} {changed : Deployment} {first before after : Server}
    (hsame : SameObjects before first) (h : Changed key changed before after) :
    Changed key changed first after where
  scalers := h.scalers.trans hsame.scalers
  workloads := h.workloads.trans hsame.workloads
  beforePatch := h.beforePatch.trans hsame.beforePatch
  deployment := h.deployment
  others other hother := (h.others other hother).trans (by rw [hsame.deployments])

section Patches

variable {server : Server} {key : Key}

/-- A patch fits if it asks for no other version and leaves key and uid. -/
theorem patched_eq_ok_iff {patch : Json} {current merged : Deployment} :
    patched key patch current = .ok merged ↔
      isStale patch current = false ∧ ∃ read, current.merge patch = .ok read ∧
        read.metadata.key = key ∧ read.metadata.uid = current.metadata.uid ∧
          merged = read.withVersion current.metadata.resourceVersion := by
  unfold patched
  cases hstale : isStale patch current with
  | true => simp
  | false =>
      rw [if_neg Bool.false_ne_true]
      cases current.merge patch with
      | error error => simp
      | ok read =>
          dsimp only
          split
          · next hother =>
            constructor
            · rintro ⟨⟩
            · rintro ⟨-, found, hfound, hkey, huid, -⟩
              obtain rfl := Except.ok.inj hfound
              exact absurd hother (not_or.2 ⟨not_not_intro hkey, not_not_intro huid⟩)
          · next hsame =>
            rw [not_or, Decidable.not_not, Decidable.not_not] at hsame
            simp [hsame, Deployment.withVersion, eq_comm]

/-- A patch that fits leaves key, uid and version of the Deployment. -/
theorem metadata_of_patched {patch : Json} {current merged : Deployment}
    (h : patched key patch current = .ok merged) :
    merged.metadata.key = key ∧ merged.metadata.uid = current.metadata.uid ∧
      merged.metadata.resourceVersion = current.metadata.resourceVersion := by
  obtain ⟨-, read, -, hkey, huid, rfl⟩ := patched_eq_ok_iff.1 h
  exact ⟨hkey, huid, rfl⟩

/-- A patched Deployment keeps its version or gets a new one. -/
theorem changed_storePatched {current : Deployment}
    (hcurrent : get? server.deployments key = some current) (merged : Deployment) :
    ∃ version, (server.storePatched key current merged).1 = merged.withVersion version ∧
      Changed key (merged.withVersion version) server
        (server.storePatched key current merged).2 := by
  unfold storePatched
  by_cases hsame : merged = current
  · rw [if_pos hsame]
    subst hsame
    exact ⟨merged.metadata.resourceVersion, rfl, rfl, rfl, rfl, hcurrent, fun _ _ => rfl⟩
  · rw [if_neg hsame]
    refine ⟨some (toString (server.versionCounter + 1)), rfl, rfl, rfl, rfl, ?_,
      fun other hother => ?_⟩
    · exact (get?_insert key _ _ key).trans (if_pos rfl)
    · exact (get?_insert key _ _ other).trans (if_neg fun h => hother h.symm)

/-- Without another writer a patch fails and changes nothing, or it changes the Deployment that is
stored. -/
theorem patchDeployment_cases (hhook : server.beforePatch = none) (key : Key) (patch : Json) :
    (∃ error, (server.patchDeployment key patch).1 = .error error ∧
        SameObjects (server.patchDeployment key patch).2 server) ∨
      ∃ answer current merged version, (server.patchDeployment key patch).1 = .ok answer ∧
        get? server.deployments key = some current ∧ patched key patch current = .ok merged ∧
        Changed key (merged.withVersion version) server (server.patchDeployment key patch).2 := by
  have hsame := sameObjects_receive .patchDeployment key server
  have hnone : (server.receive .patchDeployment key).2.beforePatch = none :=
    hsame.beforePatch.trans hhook
  have hanswered := server.patchDeployment_answered key patch
  generalize (server.patchDeployment key patch).1 = answer,
    (server.patchDeployment key patch).2 = last at hanswered ⊢
  cases hanswered with
  | refused error => exact .inl ⟨error, rfl, hsame⟩
  | @rejected stored error hstored hrejected =>
      rw [runBeforePatch_of_none key hnone]
      exact .inl ⟨error, rfl, hsame⟩
  | @accepted stored merged hstored hmerged =>
      rw [runBeforePatch_of_none key hnone] at hmerged ⊢
      obtain ⟨version, -, hchanged⟩ := changed_storePatched hstored merged
      refine .inr ⟨_, stored, merged, version, rfl, ?_, hmerged, hchanged.of_sameObjects hsame⟩
      rw [← hsame.deployments]
      exact hstored

end Patches

/-- Requests do not touch the other writer. -/
theorem beforePatch_send (request : Request) (server : Server) :
    (store.send request server).2.beforePatch = server.beforePatch := by
  let Same (before after : Server) : Prop := after.beforePatch = before.beforePatch
  have hcomposes : Composes Same :=
    ⟨fun hsame => hsame.beforePatch, fun hfirst hsecond => hsecond.trans hfirst⟩
  refine hcomposes.send (fun server key stored => ?_) (fun server key current merged => ?_)
    (fun _ _ _ _ => rfl) request server
  · exact beforePatch_runBeforePatch server key stored
  · change (server.storePatched key current merged).2.beforePatch = server.beforePatch
    unfold storePatched
    split <;> rfl

/-! ## Patches with another writer -/

/-- The Deployment that a patch under the key meets, if there is one. -/
def met? (key : Key) (server : Server) : Option Deployment :=
  (get? server.deployments key).map fun stored => (server.runBeforePatch key stored).1

section Meeting

variable {server : Server} {key : Key} {patch : Json}

theorem met?_of_sameObjects {left right : Server} (h : SameObjects left right) (key : Key) :
    left.met? key = right.met? key := by
  unfold met?
  rw [h.deployments]
  cases get? right.deployments key with
  | none => rfl
  | some stored => exact congrArg some (runBeforePatch_of_sameObjects h key stored)

/-- Without faults a patch that fits to the Deployment that it meets succeeds. -/
theorem patchDeployment_of_met (hfaults : server.faults = []) {met merged : Deployment}
    (hmet : server.met? key = some met) (hmerged : patched key patch met = .ok merged) :
    ∃ version, (server.patchDeployment key patch).1 = .ok (merged.withVersion version) ∧
      get? (server.patchDeployment key patch).2.deployments key =
        some (merged.withVersion version) := by
  have hreceived := receive_of_faults_eq_nil .patchDeployment key hfaults
  have hsame := sameObjects_receive .patchDeployment key server
  rw [hreceived] at hsame
  rw [← met?_of_sameObjects hsame] at hmet
  obtain ⟨stored, hstored, rfl⟩ := Option.map_eq_some_iff.1 hmet
  have hcurrent := (get?_runBeforePatch hstored key).trans (if_pos rfl)
  obtain ⟨version, hresult, hchanged⟩ := changed_storePatched hcurrent merged
  unfold patchDeployment
  rw [hreceived]
  dsimp only
  rw [hstored]
  dsimp only
  rw [hmerged]
  exact ⟨version, congrArg Except.ok hresult, hchanged.deployment⟩

/-- A patch that succeeds fits to the Deployment that it meets, and changes no other one. -/
theorem exists_met {result : Deployment} (h : (server.patchDeployment key patch).1 = .ok result) :
    ∃ met merged version, server.met? key = some met ∧ patched key patch met = .ok merged ∧
      result = merged.withVersion version ∧
      get? (server.patchDeployment key patch).2.deployments key = some result ∧
      ∀ other, other ≠ key → get? (server.patchDeployment key patch).2.deployments other =
        get? server.deployments other := by
  have hsame := sameObjects_receive .patchDeployment key server
  have hanswered := server.patchDeployment_answered key patch
  rw [h] at hanswered
  generalize (server.patchDeployment key patch).2 = last at hanswered ⊢
  generalize hresult : Except.ok result = answer at hanswered
  cases hanswered with
  | refused | rejected => cases hresult
  | @accepted stored merged hstored hmerged =>
      have hcurrent := (get?_runBeforePatch hstored key).trans (if_pos rfl)
      obtain ⟨version, hstoredResult, hchanged⟩ := changed_storePatched hcurrent merged
      obtain rfl := (Except.ok.inj hresult).trans hstoredResult
      refine ⟨_, merged, version, ?_, hmerged, rfl, hchanged.deployment, fun other hother => ?_⟩
      · rw [← met?_of_sameObjects hsame]
        unfold met?
        rw [hstored]
        rfl
      · rw [hchanged.others other hother, get?_runBeforePatch hstored, if_neg hother.symm,
          hsame.deployments]

end Meeting

end ReplicaKeeper.Server
