import ReplicaKeeper.Server.Store

/-!
# What requests do to a server

A request is received, which touches the record of requests and the faults only, and then answered.
Reading leaves the objects as they are, `SameObjects`.  `PatchAnswered` and `StatusAnswered` list
what comes of the two requests that write.
-/

set_option autoImplicit false

namespace ReplicaKeeper.Server

open Entries

/-! ## Receiving -/

/-- Two servers that hold the same objects and draw the same uids and versions next. -/
structure SameObjects (left right : Server) : Prop where
  scalers : left.scalers = right.scalers
  workloads : left.workloads = right.workloads
  deployments : left.deployments = right.deployments
  uidCounter : left.uidCounter = right.uidCounter
  versionCounter : left.versionCounter = right.versionCounter
  beforePatch : left.beforePatch = right.beforePatch

theorem SameObjects.refl (server : Server) : SameObjects server server := ⟨rfl, rfl, rfl, rfl, rfl, rfl⟩

theorem SameObjects.trans {first second third : Server} (h : SameObjects first second)
    (hnext : SameObjects second third) : SameObjects first third where
  scalers := h.scalers.trans hnext.scalers
  workloads := h.workloads.trans hnext.workloads
  deployments := h.deployments.trans hnext.deployments
  uidCounter := h.uidCounter.trans hnext.uidCounter
  versionCounter := h.versionCounter.trans hnext.versionCounter
  beforePatch := h.beforePatch.trans hnext.beforePatch

section Receive

variable (operation : Operation) (key : Key) (server : Server)

theorem sameObjects_receive : SameObjects (server.receive operation key).2 server := by
  unfold receive
  dsimp only
  split <;> exact ⟨rfl, rfl, rfl, rfl, rfl, rfl⟩

@[simp] theorem receive_scalers : (server.receive operation key).2.scalers = server.scalers :=
  (sameObjects_receive operation key server).scalers

@[simp] theorem receive_workloads : (server.receive operation key).2.workloads = server.workloads :=
  (sameObjects_receive operation key server).workloads

@[simp] theorem receive_deployments :
    (server.receive operation key).2.deployments = server.deployments :=
  (sameObjects_receive operation key server).deployments

@[simp] theorem receive_requests :
    (server.receive operation key).2.requests = server.requests ++ [⟨operation, key⟩] := by
  unfold receive
  dsimp only
  split <;> rfl

variable {server} in
/-- Without faults a request is only recorded. -/
theorem receive_of_faults_eq_nil (h : server.faults = []) :
    server.receive operation key =
      (none, { server with requests := server.requests ++ [⟨operation, key⟩] }) := by
  unfold receive
  dsimp only
  rw [h]
  rfl

end Receive

/-! ## Reading -/

section Reading

variable (key : Key) (server : Server)

theorem find_eq_ok_iff {α : Type} (objects : Entries Key α) (object : α) :
    find objects key = .ok object ↔ get? objects key = some object := by
  unfold find
  cases get? objects key <;> simp

/-- What is answered when the request is received with a fault, or without. -/
def answerOf {α : Type} (fault : Option ApiError) (objects : Entries Key α) : Except ApiError α :=
  match fault with
  | some error => .error error
  | none => find objects key

variable {key} in
/-- Only what is there is read. -/
theorem get?_of_answerOf {α : Type} {fault : Option ApiError} {objects : Entries Key α} {object : α}
    (h : answerOf key fault objects = .ok object) : get? objects key = some object := by
  cases fault with
  | some error => cases h
  | none => exact (find_eq_ok_iff key objects object).1 h

theorem getScaler_eq : server.getScaler key =
    (answerOf key (server.receive .getScaler key).1 server.scalers,
      (server.receive .getScaler key).2) := by
  rw [← receive_scalers .getScaler key server]
  unfold getScaler
  obtain ⟨fault, received⟩ := server.receive .getScaler key
  cases fault <;> rfl

theorem getWorkload_eq : server.getWorkload key =
    (answerOf key (server.receive .getWorkload key).1 server.workloads,
      (server.receive .getWorkload key).2) := by
  rw [← receive_workloads .getWorkload key server]
  unfold getWorkload
  obtain ⟨fault, received⟩ := server.receive .getWorkload key
  cases fault <;> rfl

theorem getDeployment_eq : server.getDeployment key =
    (answerOf key (server.receive .getDeployment key).1 server.deployments,
      (server.receive .getDeployment key).2) := by
  rw [← receive_deployments .getDeployment key server]
  unfold getDeployment
  obtain ⟨fault, received⟩ := server.receive .getDeployment key
  cases fault <;> rfl

theorem send_getWorkload : store.send (.getWorkload key) server =
    (.workload (answerOf key (server.receive .getWorkload key).1 server.workloads),
      (server.receive .getWorkload key).2) := by
  change (Response.workload (server.getWorkload key).1, (server.getWorkload key).2) = _
  rw [getWorkload_eq]

theorem send_getDeployment : store.send (.getDeployment key) server =
    (.deployment (answerOf key (server.receive .getDeployment key).1 server.deployments),
      (server.receive .getDeployment key).2) := by
  change (Response.deployment (server.getDeployment key).1, (server.getDeployment key).2) = _
  rw [getDeployment_eq]

theorem sameObjects_getScaler : SameObjects (server.getScaler key).2 server := by
  rw [getScaler_eq]
  exact sameObjects_receive .getScaler key server

theorem sameObjects_getWorkload : SameObjects (store.send (.getWorkload key) server).2 server := by
  rw [send_getWorkload]
  exact sameObjects_receive .getWorkload key server

theorem sameObjects_getDeployment :
    SameObjects (store.send (.getDeployment key) server).2 server := by
  rw [send_getDeployment]
  exact sameObjects_receive .getDeployment key server

end Reading

/-! ## Patching -/

/-- What comes of a patch once the request is received. -/
inductive PatchAnswered (key : Key) (patch : Json) (received : Server) :
    Except ApiError Deployment → Server → Prop
  /-- A fault, or nothing to patch. -/
  | refused (error : ApiError) : PatchAnswered key patch received (.error error) received
  /-- The patch does not fit to the Deployment that it met. -/
  | rejected {stored : Deployment} {error : ApiError}
      (hstored : get? received.deployments key = some stored)
      (hrejected : patched key patch (received.runBeforePatch key stored).1 = .error error) :
      PatchAnswered key patch received (.error error) (received.runBeforePatch key stored).2
  | accepted {stored merged : Deployment}
      (hstored : get? received.deployments key = some stored)
      (hmerged : patched key patch (received.runBeforePatch key stored).1 = .ok merged) :
      PatchAnswered key patch received
        (.ok ((received.runBeforePatch key stored).2.storePatched key
          (received.runBeforePatch key stored).1 merged).1)
        ((received.runBeforePatch key stored).2.storePatched key
          (received.runBeforePatch key stored).1 merged).2

section Patching

variable (key : Key) (patch : Json) (server : Server)

theorem patchDeployment_answered :
    PatchAnswered key patch (server.receive .patchDeployment key).2
      (server.patchDeployment key patch).1 (server.patchDeployment key patch).2 := by
  unfold patchDeployment
  generalize server.receive .patchDeployment key = answered
  obtain ⟨fault, received⟩ := answered
  cases fault with
  | some error => exact .refused error
  | none =>
      dsimp only
      cases hstored : get? received.deployments key with
      | none => exact .refused .notFound
      | some stored =>
          dsimp only
          cases hmerged : patched key patch (received.runBeforePatch key stored).1 with
          | error error => exact .rejected hstored hmerged
          | ok merged => exact .accepted hstored hmerged

variable {key patch server} in
theorem patchDeployment_of_send {answer : Except ApiError Deployment} {last : Server}
    (h : store.send (.patchDeployment key patch) server = (.patched answer, last)) :
    server.patchDeployment key patch = (answer, last) := by
  have hsend : store.send (.patchDeployment key patch) server =
      (.patched (server.patchDeployment key patch).1, (server.patchDeployment key patch).2) := rfl
  rw [hsend] at h
  obtain ⟨hanswer, hlast⟩ := Prod.mk.inj h
  exact Prod.ext (Response.patched.inj hanswer) hlast

variable {server} in
/-- Without another writer a patch meets what is stored. -/
theorem runBeforePatch_of_none (h : server.beforePatch = none) (stored : Deployment) :
    server.runBeforePatch key stored = (stored, server) := by
  unfold runBeforePatch
  rw [h]

end Patching

/-! ## Reporting -/

/-- The scaler that a status is written to, with the status that was sent. -/
def reported (server : Server) (sent current : Scaler) : Scaler :=
  { current with
    metadata := { current.metadata with
      resourceVersion := some (toString (server.versionCounter + 1)) }
    status := sent.status }

/-- What comes of a status write once the request is received. -/
inductive StatusAnswered (sent : Scaler) (received : Server) :
    Except ApiError Scaler → Server → Prop
  /-- A fault, nothing to report on, or a scaler that is no longer the one that is sent. -/
  | refused (error : ApiError) : StatusAnswered sent received (.error error) received
  | accepted {current : Scaler}
      (hcurrent : get? received.scalers sent.metadata.key = some current)
      (hmay : mayReport sent.metadata current.metadata = true) :
      StatusAnswered sent received (.ok (received.reported sent current))
        { received with
          scalers := insert sent.metadata.key (received.reported sent current) received.scalers
          versionCounter := received.versionCounter + 1 }

theorem updateStatus_answered (sent : Scaler) (server : Server) :
    StatusAnswered sent (server.receive .updateStatus sent.metadata.key).2
      (server.updateStatus sent).1 (server.updateStatus sent).2 := by
  unfold updateStatus
  dsimp only
  generalize server.receive .updateStatus sent.metadata.key = answered
  obtain ⟨fault, received⟩ := answered
  cases fault with
  | some error => exact .refused error
  | none =>
      dsimp only
      cases hcurrent : get? received.scalers sent.metadata.key with
      | none => exact .refused .notFound
      | some current =>
          dsimp only
          by_cases hmay : mayReport sent.metadata current.metadata = true
          · rw [if_pos hmay]
            exact .accepted hcurrent hmay
          · rw [if_neg hmay]
            exact .refused .conflict

theorem updateStatus_of_send {sent : Scaler} {server : Server} {answer : Except ApiError Scaler}
    {last : Server}
    (h : store.send (.updateStatus sent) server = (.statusUpdated answer, last)) :
    server.updateStatus sent = (answer, last) := by
  have hsend : store.send (.updateStatus sent) server =
      (.statusUpdated (server.updateStatus sent).1, (server.updateStatus sent).2) := rfl
  rw [hsend] at h
  obtain ⟨hanswer, hlast⟩ := Prod.mk.inj h
  exact Prod.ext (Response.statusUpdated.inj hanswer) hlast

/-! ## What all requests do -/

/-- A relation between servers that holds when all objects stay, and along several changes. -/
structure Composes (related : Server → Server → Prop) : Prop where
  same : ∀ {before after : Server}, SameObjects after before → related before after
  trans : ∀ {first second third : Server}, related first second → related second third →
    related first third

/-- Requests do what other writers, patches and reports do, and nothing else. -/
theorem Composes.send {related : Server → Server → Prop} (h : Composes related)
    (hmet : ∀ (server : Server) (key : Key) (stored : Deployment),
      related server (server.runBeforePatch key stored).2)
    (hpatched : ∀ (server : Server) (key : Key) (current merged : Deployment),
      related server (server.storePatched key current merged).2)
    (hreported : ∀ (server : Server) (key : Key) (sent current : Scaler),
      related server { server with
        scalers := insert key (server.reported sent current) server.scalers
        versionCounter := server.versionCounter + 1 })
    (request : Request) (server : Server) : related server (store.send request server).2 := by
  cases request with
  | getWorkload key => exact h.same (sameObjects_getWorkload key server)
  | getDeployment key => exact h.same (sameObjects_getDeployment key server)
  | patchDeployment key patch =>
      have hreceived := h.same (sameObjects_receive .patchDeployment key server)
      have hanswered := server.patchDeployment_answered key patch
      change related server (server.patchDeployment key patch).2
      generalize (server.patchDeployment key patch).1 = answer,
        (server.patchDeployment key patch).2 = last at hanswered ⊢
      cases hanswered with
      | refused error => exact hreceived
      | rejected hstored hrejected => exact h.trans hreceived (hmet _ key _)
      | @accepted stored merged hstored hmerged =>
          have hmeeting := h.trans hreceived (hmet _ key stored)
          exact h.trans hmeeting (hpatched _ key _ merged)
  | updateStatus sent =>
      have hreceived := h.same (sameObjects_receive .updateStatus sent.metadata.key server)
      have hanswered := server.updateStatus_answered sent
      change related server (server.updateStatus sent).2
      generalize (server.updateStatus sent).1 = answer, (server.updateStatus sent).2 = last
        at hanswered ⊢
      cases hanswered with
      | refused error => exact hreceived
      | accepted hcurrent hmay => exact h.trans hreceived (hreported _ _ sent _)

end ReplicaKeeper.Server
