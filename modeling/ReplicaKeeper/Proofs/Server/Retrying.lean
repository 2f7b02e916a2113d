import ReplicaKeeper.Proofs.Object.Settling
import ReplicaKeeper.Proofs.Server.Failing
import ReplicaKeeper.Proofs.Server.Patching

/-!
# Sending a patch again

A patch that asks for no resource version may be sent twice: the second answer is the first one,
down to the version, and nothing changes any more, `patchDeployment_again`.  The Deployment that the
second patch meets was written, patched and read before, so that this rests on
`Deployment.merge_again`.
-/

set_option autoImplicit false

namespace ReplicaKeeper.Server

open Entries MergePatch

variable {server : Server} {key : Key} {patch : Json}

theorem isStale_of_version? (h : version? patch = none) (current : Deployment) :
    isStale patch current = false := by
  unfold isStale
  rw [h]

/-- A patch that has led to a Deployment leads from there to nothing else. -/
theorem patched_again (hpatch : patch.WellFormed) (hversion : version? patch = none)
    {current merged : Deployment} (h : patched key patch current = .ok merged)
    (version : Option String) :
    patched key patch (merged.withVersion version) = .ok (merged.withVersion version) := by
  obtain ⟨-, read, hread, hkey, -, rfl⟩ := patched_eq_ok_iff.1 h
  obtain ⟨found, hfound⟩ := Deployment.merge_again hpatch hversion hread version
  exact patched_eq_ok_iff.2 ⟨isStale_of_version? hversion _, _, hfound, hkey, rfl, rfl⟩

/-- A patch that leads to nothing else than what is stored is received, and that is all. -/
theorem patchDeployment_of_unchanged (hhook : server.beforePatch = none)
    (hspared : takeFault .patchDeployment server.faults = none) {current : Deployment}
    (hcurrent : get? server.deployments key = some current)
    (hpatched : patched key patch current = .ok current) :
    server.patchDeployment key patch = (.ok current, (server.receive .patchDeployment key).2) := by
  have hsame := sameObjects_receive .patchDeployment key server
  have hfault : (server.receive .patchDeployment key).1 = none := by
    unfold receive
    dsimp only
    rw [hspared]
  unfold patchDeployment
  generalize server.receive .patchDeployment key = answered at hsame hfault ⊢
  obtain ⟨fault, received⟩ := answered
  obtain rfl : fault = none := hfault
  dsimp only at hsame ⊢
  rw [hsame.deployments, hcurrent]
  dsimp only
  rw [runBeforePatch_of_none key (hsame.beforePatch.trans hhook)]
  dsimp only
  rw [hpatched]
  dsimp only
  rw [storePatched, if_pos rfl]

/-- A patch that succeeds without asking for a version may be sent again: the answer is the same
down to the version, and all objects and both counters stay. -/
theorem patchDeployment_again (hhook : server.beforePatch = none) (hpatch : patch.WellFormed)
    (hversion : version? patch = none) {answer : Deployment}
    (h : (server.patchDeployment key patch).1 = .ok answer) :
    ((server.patchDeployment key patch).2.patchDeployment key patch).1 = .ok answer ∧
      SameObjects ((server.patchDeployment key patch).2.patchDeployment key patch).2
        (server.patchDeployment key patch).2 := by
  obtain ⟨met, merged, version, -, hmerged, rfl, hstored, -⟩ := exists_met h
  have hhookAfter := (beforePatch_send (.patchDeployment key patch) server).trans hhook
  change (server.patchDeployment key patch).2.beforePatch = none at hhookAfter
  -- The first request took no fault, so that none is left for the second one.
  have hspared : takeFault .patchDeployment (server.patchDeployment key patch).2.faults = none := by
    have hfaults := (allOrNothing_patchDeployment hhook key patch).faults
    rw [h] at hfaults
    generalize (server.patchDeployment key patch).2.faults = faults at hfaults
    cases hfaults with
    | spared hnone => exact takeFault_eq_none_iff.2 hnone
  rw [patchDeployment_of_unchanged hhookAfter hspared hstored
    (patched_again hpatch hversion hmerged version)]
  exact ⟨rfl, sameObjects_receive .patchDeployment key _⟩

/-- A patch that gives a fraction of a second and an unknown member, and removes a member that is
always written. -/
def retriedPatch : Json :=
  .obj [("metadata", .obj [("labels", .obj [("tier", .str "web")]), ("resourceVersion", .null)]),
    ("note", .bool true),
    ("spec", .obj [("selector", .null),
      ("template", .obj [("metadata",
        .obj [("creationTimestamp", .str "2024-05-01T10:00:00.5Z")])])])]

/-- What the patch makes of the Deployment on the sample server. -/
def retriedAnswer : Deployment where
  metadata :=
    { name := some "front", ns := some "shop", uid := some "uid-1", resourceVersion := some "4"
      labels := some (.ofPairs [("tier", "web")]) }
  spec := some
    { template := { metadata := some { creationTimestamp := some ⟨1714557600, 500000000⟩ } } }

theorem patchDeployment_again_retriedPatch :
    sampleServer.Reachable ∧ sampleServer.beforePatch = none ∧ sampleServer.faults = [] ∧
      retriedPatch.WellFormed ∧ version? retriedPatch = none ∧
      (sampleServer.patchDeployment ⟨"shop", "front"⟩ retriedPatch).1 = .ok retriedAnswer ∧
      ((sampleServer.patchDeployment ⟨"shop", "front"⟩ retriedPatch).2.patchDeployment
        ⟨"shop", "front"⟩ retriedPatch).1 = .ok retriedAnswer ∧
      SameObjects
        ((sampleServer.patchDeployment ⟨"shop", "front"⟩ retriedPatch).2.patchDeployment
          ⟨"shop", "front"⟩ retriedPatch).2
        (sampleServer.patchDeployment ⟨"shop", "front"⟩ retriedPatch).2 := by
  have hpatch : retriedPatch.WellFormed := by
    simp only [retriedPatch, Json.WellFormed, Json.WellFormedMembers]
    decide +kernel
  have hversion : version? retriedPatch = none := by rfl
  have hanswer : (sampleServer.patchDeployment ⟨"shop", "front"⟩ retriedPatch).1 =
      .ok retriedAnswer := by rfl
  exact ⟨reachable_sampleServer, rfl, rfl, hpatch, hversion, hanswer,
    patchDeployment_again rfl hpatch hversion hanswer⟩

end ReplicaKeeper.Server
