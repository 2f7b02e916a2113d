import ReplicaKeeper.Proofs.Reconcile.Repetition

/-!
# Pending faults

A call either takes a pending fault, so that fewer are left, or the faults make no difference to
what it does, `Spares`.  So a trail on a server with faults takes some of them, or it is a trail on
the server without them, `leads_withFaults`.
-/

set_option autoImplicit false

namespace ReplicaKeeper.Server

open Entries

variable {α β : Type}

/-- The server with other pending faults. -/
def withFaults (faults : List (Operation × ApiError)) (server : Server) : Server :=
  { server with faults }

theorem sameObjects_withFaults (faults : List (Operation × ApiError)) (server : Server) :
    SameObjects (server.withFaults faults) server := ⟨rfl, rfl, rfl, rfl, rfl, rfl⟩

/-! ## Faults that are taken -/

section Taken

variable {operation : Operation} {faults rest : List (Operation × ApiError)} {error : ApiError}

theorem takeFault_eq_none_iff :
    takeFault operation faults = none ↔ ∀ fault ∈ faults, fault.1 ≠ operation := by
  induction faults with
  | nil => simp [takeFault]
  | cons fault faults ih =>
      rw [takeFault]
      split
      · next hfirst => simp [hfirst]
      · next hfirst => simp [hfirst, ih]

/-- The oldest fault of the operation is taken, and the others stay in their order. -/
theorem takeFault_eq_some (h : takeFault operation faults = some (error, rest)) :
    ∃ earlier later, faults = earlier ++ (operation, error) :: later ∧
      (∀ fault ∈ earlier, fault.1 ≠ operation) ∧ rest = earlier ++ later := by
  induction faults generalizing rest with
  | nil => cases h
  | cons fault faults ih =>
      rw [takeFault] at h
      split at h
      · next hfirst =>
        cases h
        exact ⟨[], faults, by rw [← hfirst]; rfl, by simp, rfl⟩
      · next hfirst =>
        obtain ⟨⟨taken, left⟩, htaken, heq⟩ := Option.map_eq_some_iff.1 h
        cases heq
        obtain ⟨earlier, later, rfl, hearlier, rfl⟩ := ih htaken
        refine ⟨fault :: earlier, later, rfl, fun other hmem => ?_, rfl⟩
        rcases List.mem_cons.1 hmem with rfl | hmem
        · exact hfirst
        · exact hearlier other hmem

end Taken

/-! ## Calls that are spared -/

/-- The call takes a fault, or it does what it does without faults. -/
def Spares (call : Server → α × Server) : Prop :=
  ∀ server : Server, server.faults = [] → ∀ faults,
    (call (server.withFaults faults)).2.faults.length < faults.length ∨
      call (server.withFaults faults) =
        ((call server).1, (call server).2.withFaults faults)

/-- A request finds no fault of its operation, or it takes the oldest one out of the others. -/
theorem receive_cases (operation : Operation) (key : Key) (server : Server) :
    ((∀ fault ∈ server.faults, fault.1 ≠ operation) ∧
        server.receive operation key = (none, server.noted [⟨operation, key⟩])) ∨
      ∃ earlier error later, server.faults = earlier ++ (operation, error) :: later ∧
        (∀ fault ∈ earlier, fault.1 ≠ operation) ∧
        server.receive operation key =
          (some error, (server.noted [⟨operation, key⟩]).withFaults (earlier ++ later)) := by
  unfold receive
  dsimp only
  cases htaken : takeFault operation server.faults with
  | none => exact .inl ⟨takeFault_eq_none_iff.1 htaken, rfl⟩
  | some taken =>
      obtain ⟨error, rest⟩ := taken
      obtain ⟨earlier, later, hfaults, hearlier, rfl⟩ := takeFault_eq_some htaken
      exact .inr ⟨earlier, error, later, hfaults, hearlier, rfl⟩

/-- A fault that is taken is gone. -/
theorem receive_withFaults (operation : Operation) (key : Key) (server : Server)
    (faults : List (Operation × ApiError)) :
    (∃ error rest, rest.length < faults.length ∧
        (server.withFaults faults).receive operation key =
          (some error, (server.noted [⟨operation, key⟩]).withFaults rest)) ∨
      (server.withFaults faults).receive operation key =
        (none, (server.noted [⟨operation, key⟩]).withFaults faults) := by
  rcases receive_cases operation key (server.withFaults faults) with
    ⟨-, hreceive⟩ | ⟨earlier, error, later, hfaults, -, hreceive⟩
  · exact .inr hreceive
  · have hpending : faults = earlier ++ (operation, error) :: later := hfaults
    refine .inl ⟨error, earlier ++ later, ?_, hreceive⟩
    simp only [hpending, List.length_append, List.length_cons]
    omega

/-- A request that is answered with a fault, or else by a function of the server. -/
def answering (operation : Operation) (key : Key)
    (answer : Server → Except ApiError α × Server) (server : Server) :
    Except ApiError α × Server :=
  match server.receive operation key with
  | (some error, server) => (.error error, server)
  | (none, server) => answer server

theorem spares_answering (operation : Operation) (key : Key)
    {answer : Server → Except ApiError α × Server}
    (hanswer : ∀ server faults, answer (server.withFaults faults) =
      ((answer server).1, (answer server).2.withFaults faults)) :
    Spares (answering operation key answer) := by
  intro server hnone faults
  rcases receive_withFaults operation key server faults with ⟨error, rest, hlt, hreceive⟩ | hreceive
  · refine .inl ?_
    rw [answering, hreceive]
    exact hlt
  · refine .inr ?_
    rw [answering, hreceive, answering, receive_of_faults_eq_nil operation key hnone]
    exact hanswer _ faults

theorem Spares.map {call : Server → α × Server} (h : Spares call) (wrap : α → β) :
    Spares fun server => (wrap (call server).1, (call server).2) := by
  intro server hnone faults
  rcases h server hnone faults with hlt | hsame
  · exact .inl hlt
  · refine .inr ?_
    dsimp only
    rw [hsame]

/-- Faults never become more. -/
theorem Spares.faults_le {call : Server → α × Server} (h : Spares call) (server : Server) :
    (call server).2.faults.length ≤ server.faults.length := by
  have hparts : (server.withFaults []).withFaults server.faults = server := rfl
  have hspared := h (server.withFaults []) rfl server.faults
  rw [hparts] at hspared
  rcases hspared with hlt | hsame
  · exact Nat.le_of_lt hlt
  · rw [hsame]
    exact Nat.le_refl _

/-! ## The requests -/

theorem spares_getScaler (key : Key) : Spares (getScaler key) :=
  spares_answering .getScaler key fun _ _ => rfl

theorem spares_getWorkload (key : Key) : Spares (getWorkload key) :=
  spares_answering .getWorkload key fun _ _ => rfl

theorem spares_getDeployment (key : Key) : Spares (getDeployment key) :=
  spares_answering .getDeployment key fun _ _ => rfl

/-- What a patch does once the request is received does not depend on faults. -/
theorem spares_patchDeployment (key : Key) (patch : Json) : Spares (patchDeployment key patch) := by
  refine spares_answering .patchDeployment key fun server faults => ?_
  have hmet (stored : Deployment) : (server.withFaults faults).runBeforePatch key stored =
      ((server.runBeforePatch key stored).1,
        (server.runBeforePatch key stored).2.withFaults faults) := by
    have hhook : (server.withFaults faults).beforePatch = server.beforePatch := rfl
    unfold runBeforePatch
    rw [hhook]
    cases server.beforePatch <;> rfl
  have hstored (server : Server) (current merged : Deployment) :
      (server.withFaults faults).storePatched key current merged =
        ((server.storePatched key current merged).1,
          (server.storePatched key current merged).2.withFaults faults) := by
    unfold storePatched
    split <;> rfl
  have hdeployments : (server.withFaults faults).deployments = server.deployments := rfl
  dsimp only
  rw [hdeployments]
  cases get? server.deployments key with
  | none => rfl
  | some stored =>
      dsimp only
      rw [hmet]
      dsimp only
      cases patched key patch (server.runBeforePatch key stored).1 with
      | error error => rfl
      | ok merged =>
          dsimp only
          rw [hstored]

theorem spares_updateStatus (sent : Scaler) : Spares (updateStatus sent) := by
  refine spares_answering .updateStatus sent.metadata.key fun server faults => ?_
  have hscalers : (server.withFaults faults).scalers = server.scalers := rfl
  dsimp only
  rw [hscalers]
  cases get? server.scalers sent.metadata.key with
  | none => rfl
  | some current =>
      dsimp only
      split <;> rfl

theorem spares_send (request : Request) : Spares (store.send request) := by
  cases request with
  | getWorkload key => exact (spares_getWorkload key).map Response.workload
  | getDeployment key => exact (spares_getDeployment key).map Response.deployment
  | patchDeployment key patch => exact (spares_patchDeployment key patch).map Response.patched
  | updateStatus sent => exact (spares_updateStatus sent).map Response.statusUpdated

/-! ## Trails -/

theorem Spares.faults_eq_nil {call : Server → α × Server} (h : Spares call) {server : Server}
    (hnone : server.faults = []) : (call server).2.faults = [] := by
  have hle := h.faults_le server
  rw [hnone] at hle
  exact List.eq_nil_of_length_eq_zero (Nat.le_zero.1 hle)

theorem faults_le_of_leads {first last : Server} {calls : List StoreCall}
    (h : store.Leads first calls last) : last.faults.length ≤ first.faults.length := by
  refine h.keeps (P := fun world => world.faults.length ≤ first.faults.length)
    (fun key world hle => ?_) (fun request world hle => ?_) (Nat.le_refl _)
  · exact Nat.le_trans ((spares_getScaler key).faults_le world) hle
  · exact Nat.le_trans ((spares_send request).faults_le world) hle

/-- Calls bring about neither faults nor another writer. -/
theorem Undisturbed.of_leads {first last : Server} {calls : List StoreCall}
    (h : store.Leads first calls last) (hundisturbed : first.Undisturbed) : last.Undisturbed := by
  refine h.keeps (fun key world hworld => ?_) (fun request world hworld => ?_) hundisturbed
  · exact ⟨(spares_getScaler key).faults_eq_nil hworld.faults,
      (sameObjects_getScaler key world).beforePatch.trans hworld.beforePatch⟩
  · exact ⟨(spares_send request).faults_eq_nil hworld.faults,
      (beforePatch_send request world).trans hworld.beforePatch⟩

/-- A trail takes some of the faults, or it is a trail without faults as well. -/
theorem leads_withFaults {server last : Server} {calls : List StoreCall}
    {faults : List (Operation × ApiError)} (hnone : server.faults = [])
    (h : store.Leads (server.withFaults faults) calls last) :
    last.faults.length < faults.length ∨
      ∃ after, store.Leads server calls after ∧ last = after.withFaults faults := by
  induction calls generalizing server with
  | nil =>
      cases h
      exact .inr ⟨server, .nil server, rfl⟩
  | cons call calls ih =>
      have hstep {α : Type} {call : Server → α × Server} (hspares : Spares call)
          (hrest : store.Leads (call (server.withFaults faults)).2 calls last) :
          last.faults.length < faults.length ∨
            ∃ after, (call (server.withFaults faults)).1 = (call server).1 ∧
              store.Leads (call server).2 calls after ∧ last = after.withFaults faults := by
        rcases hspares server hnone faults with hlt | hsame
        · exact .inl (Nat.lt_of_le_of_lt (faults_le_of_leads hrest) hlt)
        · rw [hsame] at hrest ⊢
          refine (ih (hspares.faults_eq_nil hnone) hrest).imp_right ?_
          rintro ⟨after, hafter, hlast⟩
          exact ⟨after, rfl, hafter, hlast⟩
      cases h with
      | gotScaler key hrest =>
          refine (hstep (spares_getScaler key) hrest).imp_right ?_
          rintro ⟨after, hanswer, hafter, hlast⟩
          change (store.getScaler key _).1 = _ at hanswer
          rw [hanswer]
          exact ⟨after, .gotScaler key hafter, hlast⟩
      | sent request hrest =>
          refine (hstep (spares_send request) hrest).imp_right ?_
          rintro ⟨after, hanswer, hafter, hlast⟩
          rw [hanswer]
          exact ⟨after, .sent request hafter, hlast⟩

end ReplicaKeeper.Server
