import ReplicaKeeper.Proofs.Reconcile.Trail
import ReplicaKeeper.Proofs.Server.Patching

/-!
# Servers that clients bring about

Clients create and delete objects, send requests, let requests fail and put another writer before
the patches.  A server is reachable when deeds of these kinds lead to it from the empty one.  A
reconcile is nothing but requests, so it leads from a reachable server to a reachable one,
`Reachable.reconcile`.

In a reachable server every object is stored under its own key, `Reachable.keyed`; only another
writer before the patches may give a Deployment another name.
-/

set_option autoImplicit false

namespace ReplicaKeeper

open Entries

/-! ## Deeds -/

/-- What a client does to a server. -/
inductive Deed where
  | createScaler (scaler : Scaler)
  | createWorkload (workload : Workload)
  | createDeployment (deployment : Deployment)
  | deleteScaler (key : Key)
  | readScaler (key : Key)
  /-- Reads a workload or a Deployment, patches a Deployment or writes the status of a scaler. -/
  | send (request : Request)
  | injectFault (operation : Operation) (error : ApiError)
  | onBeforePatch (hook : Deployment → Deployment)

/-- The server after a deed. -/
def Deed.run (server : Server) : Deed → Server
  | createScaler scaler => (server.createScaler scaler).2
  | createWorkload workload => (server.createWorkload workload).2
  | createDeployment deployment => (server.createDeployment deployment).2
  | deleteScaler key => (server.deleteScaler key).2
  | readScaler key => (server.getScaler key).2
  | send request => (Server.store.send request server).2
  | injectFault operation error => server.injectFault operation error
  | onBeforePatch hook => server.onBeforePatch hook

namespace Server

/-- Deeds lead from the empty server to the given one. -/
inductive Reachable : Server → Prop
  | start : Reachable {}
  | after {server : Server} (deed : Deed) (h : Reachable server) : Reachable (deed.run server)

theorem Reachable.reconcile {server : Server} (h : server.Reachable) (now : Time) (config : Config)
    (key : Key) : (Reconcile.reconcile now config store key server).2.Reachable :=
  Reconcile.reconcile_keeps (fun key _ h => h.after (.readScaler key))
    (fun request _ h => h.after (.send request)) now config key h

theorem Reachable.foldl {server : Server} (h : server.Reachable) (deeds : List Deed) :
    (deeds.foldl Deed.run server).Reachable := by
  induction deeds generalizing server with
  | nil => exact h
  | cons deed deeds ih => exact ih (h.after deed)

/-- The key of the scaler on the sample server. -/
def sampleKey : Key := ⟨"shop", "web"⟩

/-- A scaler, the workload that it points to, and the Deployment of the workload are created. -/
def sampleDeeds : List Deed := [
  .createScaler
    { metadata := { name := some "web", ns := some "shop", uid := some "scaler" }
      spec := ⟨3, { apiVersion := none, kind := none, name := "web", uid := some "workload" }⟩
      status := none },
  .createWorkload
    { metadata := { name := some "web", ns := some "shop", uid := some "workload" }
      spec := ⟨none, []⟩
      status := some ⟨[], [⟨none, some "Deployment", "front", none⟩]⟩ },
  .createDeployment { metadata := { name := some "front", ns := some "shop" } }]

def sampleServer : Server := sampleDeeds.foldl Deed.run {}

theorem reachable_sampleServer : sampleServer.Reachable := Reachable.start.foldl _

/-! ## The effect of a creation -/

section Stamp

variable (metadata : ObjectMeta) (server : Server)

@[simp] theorem resourceVersion_stamp :
    (server.stamp metadata).1.resourceVersion = some (toString (server.versionCounter + 1)) := by
  unfold stamp
  cases metadata.uid <;> rfl

@[simp] theorem versionCounter_stamp :
    (server.stamp metadata).2.versionCounter = server.versionCounter + 1 := by
  unfold stamp
  cases metadata.uid <;> rfl

@[simp] theorem scalers_stamp : (server.stamp metadata).2.scalers = server.scalers := by
  unfold stamp
  cases metadata.uid <;> rfl

@[simp] theorem deployments_stamp : (server.stamp metadata).2.deployments = server.deployments := by
  unfold stamp
  cases metadata.uid <;> rfl

@[simp] theorem beforePatch_stamp : (server.stamp metadata).2.beforePatch = server.beforePatch := by
  unfold stamp
  cases metadata.uid <;> rfl

end Stamp

end Server

/-! ## Objects under their keys -/

/-- Every object is stored under its own key. -/
def Entries.Keyed {α : Type} (keyOf : α → Key) (objects : Entries Key α) : Prop :=
  ∀ key object, get? objects key = some object → keyOf object = key

namespace Entries.Keyed

variable {α : Type} {keyOf : α → Key} {objects : Entries Key α}

theorem nil : Keyed keyOf ([] : Entries Key α) := by
  intro key object hobject
  cases hobject

theorem insert (h : Keyed keyOf objects) {key : Key} {object : α} (hkey : keyOf object = key) :
    Keyed keyOf (Entries.insert key object objects) := by
  intro other found hfound
  rw [get?_insert] at hfound
  split at hfound
  · next hother =>
    cases hfound
    exact hkey.trans hother
  · exact h other found hfound

theorem erase (h : Keyed keyOf objects) (key : Key) : Keyed keyOf (Entries.erase key objects) := by
  intro other found hfound
  rw [get?_erase] at hfound
  split at hfound
  · cases hfound
  · exact h other found hfound

end Entries.Keyed

namespace Server

/-- Scalers are stored under their own keys, and so are Deployments while no other writer changes
them before a patch. -/
structure Keyed (server : Server) : Prop where
  scalers : server.scalers.Keyed (·.metadata.key)
  deployments : server.beforePatch = none → server.deployments.Keyed (·.metadata.key)

theorem Keyed.of_sameObjects {left right : Server} (hsame : SameObjects left right)
    (h : right.Keyed) : left.Keyed where
  scalers := by
    rw [hsame.scalers]
    exact h.scalers
  deployments hnone := by
    rw [hsame.beforePatch] at hnone
    rw [hsame.deployments]
    exact h.deployments hnone

section Patching

variable {server : Server} {key : Key}

theorem Keyed.runBeforePatch (h : server.Keyed) (stored : Deployment) :
    (server.runBeforePatch key stored).2.Keyed := by
  cases hhook : server.beforePatch with
  | none =>
      rw [runBeforePatch_of_none key hhook]
      exact h
  | some hook =>
      have hscalers : (server.runBeforePatch key stored).2.scalers = server.scalers := by
        unfold Server.runBeforePatch
        rw [hhook]
        rfl
      refine ⟨?_, fun hnone => ?_⟩
      · rw [hscalers]
        exact h.scalers
      · rw [beforePatch_runBeforePatch, hhook] at hnone
        cases hnone

theorem Keyed.storePatched (h : server.Keyed) {current merged : Deployment}
    (hmerged : merged.metadata.key = key) : (server.storePatched key current merged).2.Keyed := by
  unfold Server.storePatched
  split
  · exact h
  · exact ⟨h.scalers, fun hnone => (h.deployments hnone).insert hmerged⟩

theorem Keyed.patchDeployment (h : server.Keyed) (key : Key) (patch : Json) :
    (server.patchDeployment key patch).2.Keyed := by
  have hreceived := h.of_sameObjects (sameObjects_receive .patchDeployment key server)
  have hanswered := server.patchDeployment_answered key patch
  generalize (server.patchDeployment key patch).1 = answer,
    (server.patchDeployment key patch).2 = last at hanswered ⊢
  cases hanswered with
  | refused error => exact hreceived
  | @rejected stored error hstored hrejected => exact hreceived.runBeforePatch stored
  | @accepted stored merged hstored hmerged =>
      exact (hreceived.runBeforePatch stored).storePatched (metadata_of_patched hmerged).1

theorem Keyed.updateStatus (h : server.Keyed) (sent : Scaler) :
    (server.updateStatus sent).2.Keyed := by
  have hreceived := h.of_sameObjects (sameObjects_receive .updateStatus sent.metadata.key server)
  have hanswered := server.updateStatus_answered sent
  generalize (server.updateStatus sent).1 = answer, (server.updateStatus sent).2 = last
    at hanswered ⊢
  cases hanswered with
  | refused error => exact hreceived
  | @accepted current hcurrent hmay =>
      have hkey := hreceived.scalers _ _ hcurrent
      exact ⟨hreceived.scalers.insert hkey, hreceived.deployments⟩

end Patching

theorem Keyed.run {server : Server} (h : server.Keyed) (deed : Deed) :
    (deed.run server).Keyed := by
  cases deed with
  | createScaler scaler =>
      refine ⟨?_, fun hnone => ?_⟩
      · simp only [Deed.run, createScaler, scalers_stamp]
        exact h.scalers.insert rfl
      · simp only [Deed.run, createScaler, beforePatch_stamp, deployments_stamp] at hnone ⊢
        exact h.deployments hnone
  | createWorkload workload =>
      refine ⟨?_, fun hnone => ?_⟩
      · simp only [Deed.run, createWorkload, scalers_stamp]
        exact h.scalers
      · simp only [Deed.run, createWorkload, beforePatch_stamp, deployments_stamp] at hnone ⊢
        exact h.deployments hnone
  | createDeployment deployment =>
      refine ⟨?_, fun hnone => ?_⟩
      · simp only [Deed.run, createDeployment, scalers_stamp]
        exact h.scalers
      · simp only [Deed.run, createDeployment, beforePatch_stamp, deployments_stamp] at hnone ⊢
        exact (h.deployments hnone).insert rfl
  | deleteScaler key => exact ⟨h.scalers.erase key, h.deployments⟩
  | readScaler key => exact h.of_sameObjects (sameObjects_getScaler key server)
  | send request =>
      cases request with
      | getWorkload key => exact h.of_sameObjects (sameObjects_getWorkload key server)
      | getDeployment key => exact h.of_sameObjects (sameObjects_getDeployment key server)
      | patchDeployment key patch => exact h.patchDeployment key patch
      | updateStatus sent => exact h.updateStatus sent
  | injectFault operation error => exact ⟨h.scalers, h.deployments⟩
  | onBeforePatch hook =>
      refine ⟨h.scalers, fun hnone => ?_⟩
      cases hnone

/-- Only one deed puts another writer before the patches. -/
theorem beforePatch_run (server : Server) {deed : Deed} (h : ∀ hook, deed ≠ .onBeforePatch hook) :
    (deed.run server).beforePatch = server.beforePatch := by
  cases deed with
  | createScaler | createWorkload | createDeployment =>
      simp only [Deed.run, createScaler, createWorkload, createDeployment, beforePatch_stamp]
  | deleteScaler | injectFault => rfl
  | readScaler key => exact (sameObjects_getScaler key server).beforePatch
  | send request => exact beforePatch_send request server
  | onBeforePatch hook => exact absurd rfl (h hook)

/-- Once there is another writer before the patches, there always is one. -/
theorem beforePatch_of_run {server : Server} {deed : Deed} (h : (deed.run server).beforePatch = none) :
    server.beforePatch = none := by
  refine (server.beforePatch_run fun hook hdeed => ?_).symm.trans h
  subst hdeed
  cases h

theorem beforePatch_of_foldl {server : Server} {deeds : List Deed}
    (h : (deeds.foldl Deed.run server).beforePatch = none) : server.beforePatch = none := by
  induction deeds generalizing server with
  | nil => exact h
  | cons deed deeds ih => exact beforePatch_of_run (ih h)

/-- In a reachable server every object is stored under its own key. -/
theorem Reachable.keyed {server : Server} (h : server.Reachable) : server.Keyed := by
  induction h with
  | start => exact ⟨.nil, fun _ => .nil⟩
  | after deed _ ih => exact ih.run deed

end Server

end ReplicaKeeper
