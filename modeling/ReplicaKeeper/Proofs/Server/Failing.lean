import ReplicaKeeper.Proofs.Server.Faults
import ReplicaKeeper.Proofs.Server.Identity

/-!
# Requests that fail

A request is recorded, and the oldest fault of its operation answers it, if there is one.  Otherwise
it is carried out as a whole or fails without a trace: `requests_answered` says so for all requests
to a server without another writer before the patches.  A request that succeeds may write to one
place, and only patches and reports do.
-/

set_option autoImplicit false

namespace ReplicaKeeper

/-- The place that a request may write to. -/
def Operation.written? (operation : Operation) (key : Key) : Option Place :=
  match operation with
  | patchDeployment => some (.deployment key)
  | updateStatus => some (.scaler key)
  | getScaler | getWorkload | getDeployment => none

namespace Server

open Entries

variable {α : Type}

/-! ## Faults -/

/-- What becomes of the pending faults when a request is answered. -/
inductive FaultsLeft (operation : Operation) (faults : List (Operation × ApiError)) :
    Except ApiError α → List (Operation × ApiError) → Prop
  /-- There is no fault of the operation, and all faults stay. -/
  | spared {answer : Except ApiError α} (hnone : ∀ fault ∈ faults, fault.1 ≠ operation) :
      FaultsLeft operation faults answer faults
  /-- The oldest fault of the operation is the answer, and it is gone. -/
  | taken {error : ApiError} {earlier later : List (Operation × ApiError)}
      (hfaults : faults = earlier ++ (operation, error) :: later)
      (hearlier : ∀ fault ∈ earlier, fault.1 ≠ operation) :
      FaultsLeft operation faults (.error error) (earlier ++ later)

/-! ## Requests as a whole -/

/-- What a request does once it is received without a fault: nothing, or a write to its place. -/
structure CarriedOut (operation : Operation) (key : Key) (before : Server)
    (result : Except ApiError α × Server) : Prop where
  requests : result.2.requests = before.requests
  faults : result.2.faults = before.faults
  failed : ∀ error, result.1 = .error error → SameObjects result.2 before
  others : ∀ place, operation.written? key ≠ some place →
    result.2.stored? place = before.stored? place

/-- A request is recorded, and carried out as a whole or not at all. -/
structure AllOrNothing (operation : Operation) (key : Key) (before : Server)
    (result : Except ApiError α × Server) : Prop where
  recorded : result.2.requests = before.requests ++ [⟨operation, key⟩]
  faults : FaultsLeft operation before.faults result.1 result.2.faults
  /-- All objects and both counters stay when the request fails. -/
  failed : ∀ error, result.1 = .error error → SameObjects result.2 before
  /-- No object changes but the one that the request may write to. -/
  others : ∀ place, operation.written? key ≠ some place →
    result.2.stored? place = before.stored? place

section Requests

variable {server : Server} {operation : Operation} {key : Key}

/-- Nothing happens to a server that stays the same. -/
theorem carriedOut_same (operation : Operation) (key : Key) (server : Server)
    (answer : Except ApiError α) : CarriedOut operation key server (answer, server) where
  requests := rfl
  faults := rfl
  failed _ _ := SameObjects.refl server
  others _ _ := rfl

theorem allOrNothing_answering {answer : Server → Except ApiError α × Server}
    (hanswer : ∀ server, server.beforePatch = none → CarriedOut operation key server (answer server))
    (hnone : server.beforePatch = none) :
    AllOrNothing operation key server (answering operation key answer server) := by
  have hsame := sameObjects_receive operation key server
  have hplaces (place : Place) := hsame.stored?_eq place
  unfold answering
  rcases receive_cases operation key server with
    ⟨hspared, hreceive⟩ | ⟨earlier, error, later, hfaults, hearlier, hreceive⟩
  · rw [hreceive] at hsame hplaces ⊢
    have hcarried := hanswer _ (hsame.beforePatch.trans hnone)
    refine ⟨hcarried.requests, ?_, fun error herror => ?_, fun place hplace => ?_⟩
    · rw [hcarried.faults]
      exact .spared hspared
    · exact (hcarried.failed error herror).trans hsame
    · exact (hcarried.others place hplace).trans (hplaces place)
  · rw [hreceive] at hsame hplaces ⊢
    exact ⟨rfl, .taken hfaults hearlier, fun _ _ => hsame, fun place _ => hplaces place⟩

theorem allOrNothing_getScaler (hnone : server.beforePatch = none) (key : Key) :
    AllOrNothing .getScaler key server (server.getScaler key) :=
  allOrNothing_answering (fun server _ => carriedOut_same .getScaler key server _) hnone

theorem allOrNothing_getWorkload (hnone : server.beforePatch = none) (key : Key) :
    AllOrNothing .getWorkload key server (server.getWorkload key) :=
  allOrNothing_answering (fun server _ => carriedOut_same .getWorkload key server _) hnone

theorem allOrNothing_getDeployment (hnone : server.beforePatch = none) (key : Key) :
    AllOrNothing .getDeployment key server (server.getDeployment key) :=
  allOrNothing_answering (fun server _ => carriedOut_same .getDeployment key server _) hnone

/-- A write to the place of the request is carried out. -/
theorem carriedOut_write {before after : Server} {place : Place}
    (hwritten : operation.written? key = some place)
    (hrequests : after.requests = before.requests) (hfaults : after.faults = before.faults)
    (hplaces : ∀ other, place ≠ other → after.stored? other = before.stored? other)
    (answer : α) : CarriedOut operation key before (.ok answer, after) where
  requests := hrequests
  faults := hfaults
  failed error herror := by cases herror
  others other hother := hplaces other fun heq => hother (hwritten.trans (congrArg some heq))

theorem allOrNothing_patchDeployment (hnone : server.beforePatch = none) (key : Key)
    (patch : Json) :
    AllOrNothing .patchDeployment key server (server.patchDeployment key patch) := by
  refine allOrNothing_answering (fun server hnone => ?_) hnone
  cases get? server.deployments key with
  | none => exact carriedOut_same _ key server _
  | some stored =>
      dsimp only
      rw [runBeforePatch_of_none key hnone]
      dsimp only
      cases patched key patch stored with
      | error error => exact carriedOut_same _ key server _
      | ok merged =>
          dsimp only
          unfold storePatched
          split
          · exact carriedOut_same _ key server _
          · refine carriedOut_write (by rfl) (by rfl) (by rfl) (fun other hother => ?_) _
            apply (stored?_insert_deployment ?_ ?_ ?_ other).trans (if_neg hother)
            any_goals rfl

theorem allOrNothing_updateStatus (hnone : server.beforePatch = none) (sent : Scaler) :
    AllOrNothing .updateStatus sent.metadata.key server (server.updateStatus sent) := by
  refine allOrNothing_answering (fun server hnone => ?_) hnone
  cases get? server.scalers sent.metadata.key with
  | none => exact carriedOut_same _ _ server _
  | some current =>
      dsimp only
      split
      · refine carriedOut_write (by rfl) (by rfl) (by rfl) (fun other hother => ?_) _
        apply (stored?_insert_scaler ?_ ?_ ?_ other).trans (if_neg hother)
        any_goals rfl
      · exact carriedOut_same _ _ server _

end Requests

/-- Every request to the server is recorded, and carried out as a whole or not at all. -/
structure Answers (server : Server) : Prop where
  getScaler (key : Key) : AllOrNothing .getScaler key server (server.getScaler key)
  getWorkload (key : Key) : AllOrNothing .getWorkload key server (server.getWorkload key)
  getDeployment (key : Key) : AllOrNothing .getDeployment key server (server.getDeployment key)
  patchDeployment (key : Key) (patch : Json) :
    AllOrNothing .patchDeployment key server (server.patchDeployment key patch)
  updateStatus (sent : Scaler) :
    AllOrNothing .updateStatus sent.metadata.key server (server.updateStatus sent)

/-- Without another writer before the patches, a request that fails leaves all objects and both
counters as they were, and one that succeeds changes no object but its own. -/
theorem requests_answered (server : Server) (hnone : server.beforePatch = none) :
    server.Answers where
  getScaler := allOrNothing_getScaler hnone
  getWorkload := allOrNothing_getWorkload hnone
  getDeployment := allOrNothing_getDeployment hnone
  patchDeployment := allOrNothing_patchDeployment hnone
  updateStatus := allOrNothing_updateStatus hnone

/-- The next patch on the sample server fails. -/
theorem requests_answered_sampleServer :
    (sampleServer.injectFault .patchDeployment .conflict).beforePatch = none ∧
      (sampleServer.injectFault .patchDeployment .conflict).Answers :=
  ⟨rfl, requests_answered _ rfl⟩

end Server

end ReplicaKeeper
