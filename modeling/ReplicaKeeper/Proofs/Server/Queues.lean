import ReplicaKeeper.Proofs.Server.Faults

/-!
# Pending faults as queues

The faults of all operations are pending in one list, and a request takes the oldest fault of its
operation from wherever it stands.  To those who send requests this is one queue for each operation,
and the queues know nothing of each other: `faults_queued` runs each of them by itself, on the
events of its own operation, and finds the same answers and the same faults left.

A request takes the first fault of its queue and leaves the other queues alone, `fst_receive` and
`faultsOf_receive`; the rest is by induction over the events.
-/

set_option autoImplicit false

namespace ReplicaKeeper

/-! ## A queue -/

/-- What happens to a queue of faults: one is put at its end, or the first one is asked for. -/
inductive QueueEvent where
  | put (error : ApiError)
  | ask

namespace QueueEvent

/-- The fault that is put into the queue. -/
def put? : QueueEvent → Option ApiError
  | .put error => some error
  | .ask => none

/-- What those who ask are answered, and what is left in the queue at the end.  An empty queue has
no answer. -/
def run : List QueueEvent → (queue : List ApiError) → List (Option ApiError) × List ApiError
  | [], queue => ([], queue)
  | .put error :: events, queue => run events (queue ++ [error])
  | .ask :: events, queue =>
      let (answers, left) := run events queue.tail
      (queue.head? :: answers, left)

theorem run_ask (events : List QueueEvent) (queue : List ApiError) :
    run (.ask :: events) queue =
      (queue.head? :: (run events queue.tail).1, (run events queue.tail).2) := rfl

/-- Faults are answered in the order in which they were put into the queue, each of them once, and
those that were not answered are left. -/
theorem run_inOrder (events : List QueueEvent) (queue : List ApiError) :
    (run events queue).1.filterMap id ++ (run events queue).2 =
      queue ++ events.filterMap put? := by
  induction events generalizing queue with
  | nil => exact (List.append_nil queue).symm
  | cons event events ih =>
      cases event with
      | put error =>
          have hput : put? (.put error) = some error := rfl
          rw [run, ih, List.filterMap_cons_some hput, List.append_assoc, List.singleton_append]
      | ask =>
          have hask : put? .ask = none := rfl
          rw [run_ask, List.filterMap_cons_none hask]
          cases queue with
          | nil => exact ih []
          | cons error queue => exact congrArg (error :: ·) (ih queue)

end QueueEvent

/-! ## Events on a server -/

/-- What happens to the pending faults of a server. -/
inductive FaultEvent where
  | inject (operation : Operation) (error : ApiError)
  | receive (operation : Operation) (key : Key)

namespace FaultEvent

/-- The fault that is injected. -/
def fault? : FaultEvent → Option (Operation × ApiError)
  | .inject operation error => some (operation, error)
  | .receive _ _ => none

/-- The request that is received. -/
def record? : FaultEvent → Option RequestRecord
  | .inject _ _ => none
  | .receive operation key => some ⟨operation, key⟩

/-- What an event is for the queue of an operation: nothing, when it is one of another operation. -/
def forQueue? (operation : Operation) : FaultEvent → Option QueueEvent
  | .inject other error => if other = operation then some (.put error) else none
  | .receive other _ => if other = operation then some .ask else none

end FaultEvent

namespace Server

/-- The requests among the events with what they are answered, and the server afterwards. -/
def runFaults : List FaultEvent → Server → List (RequestRecord × Option ApiError) × Server
  | [], server => ([], server)
  | .inject operation error :: events, server =>
      runFaults events (server.injectFault operation error)
  | .receive operation key :: events, server =>
      let (answer, received) := server.receive operation key
      let (answers, last) := runFaults events received
      ((⟨operation, key⟩, answer) :: answers, last)

/-- The faults of an operation, the oldest first. -/
def faultsOf (operation : Operation) (faults : List (Operation × ApiError)) : List ApiError :=
  (faults.filter fun fault => fault.1 = operation).map (·.2)

/-- What the requests of an operation are answered. -/
def answersTo (operation : Operation) (answers : List (RequestRecord × Option ApiError)) :
    List (Option ApiError) :=
  (answers.filter fun answer => answer.1.operation = operation).map (·.2)

/-- The faults that requests of an operation are answered with. -/
def takenBy (operation : Operation) (answers : List (RequestRecord × Option ApiError)) :
    List ApiError :=
  (answersTo operation answers).filterMap id

/-- The faults without the oldest ones of each operation, of each as many as are counted. -/
def withoutOldest (counts : Operation → Nat) :
    List (Operation × ApiError) → List (Operation × ApiError)
  | [] => []
  | fault :: faults =>
      if counts fault.1 = 0 then fault :: withoutOldest counts faults
      else
        withoutOldest (fun other => if other = fault.1 then counts other - 1 else counts other)
          faults

/-! ## One event -/

section Faults

variable {operation other : Operation} {faults : List (Operation × ApiError)}

theorem faultsOf_append (operation : Operation) (faults more : List (Operation × ApiError)) :
    faultsOf operation (faults ++ more) = faultsOf operation faults ++ faultsOf operation more := by
  simp [faultsOf]

@[simp] theorem faultsOf_cons_self (operation : Operation) (error : ApiError)
    (faults : List (Operation × ApiError)) :
    faultsOf operation ((operation, error) :: faults) = error :: faultsOf operation faults := by
  simp [faultsOf]

theorem faultsOf_cons_of_ne (h : operation ≠ other) (error : ApiError)
    (faults : List (Operation × ApiError)) :
    faultsOf other ((operation, error) :: faults) = faultsOf other faults := by
  simp [faultsOf, h]

theorem faultsOf_eq_nil_iff :
    faultsOf operation faults = [] ↔ ∀ fault ∈ faults, fault.1 ≠ operation := by
  simp [faultsOf]

end Faults

section Receive

variable (operation : Operation) (key : Key) (server : Server)

/-- A request is answered with the first fault in the queue of its operation. -/
theorem fst_receive :
    (server.receive operation key).1 = (faultsOf operation server.faults).head? := by
  rcases receive_cases operation key server with
    ⟨hnone, hreceive⟩ | ⟨earlier, error, later, hfaults, hearlier, hreceive⟩
  · rw [hreceive, faultsOf_eq_nil_iff.2 hnone]
    rfl
  · rw [hreceive, hfaults, faultsOf_append, faultsOf_eq_nil_iff.2 hearlier, faultsOf_cons_self]
    rfl

/-- The first fault leaves the queue of the operation, and the other queues stay. -/
theorem faultsOf_receive (other : Operation) :
    faultsOf other (server.receive operation key).2.faults =
      if operation = other then (faultsOf other server.faults).tail
      else faultsOf other server.faults := by
  rcases receive_cases operation key server with
    ⟨hnone, hreceive⟩ | ⟨earlier, error, later, hfaults, hearlier, hreceive⟩
  · rw [hreceive]
    split
    · next hsame =>
      subst hsame
      have hempty := faultsOf_eq_nil_iff.2 hnone
      rw [hempty]
      exact hempty
    · rfl
  · have hleft : (server.receive operation key).2.faults = earlier ++ later := by rw [hreceive]; rfl
    rw [hleft, hfaults, faultsOf_append, faultsOf_append]
    split
    · next hsame =>
      subst hsame
      rw [faultsOf_eq_nil_iff.2 hearlier, faultsOf_cons_self]
      rfl
    · next hother => rw [faultsOf_cons_of_ne hother]

end Receive

/-! ## Runs -/

section Answers

variable {operation other : Operation} (key : Key)
  (answers : List (RequestRecord × Option ApiError))

@[simp] theorem answersTo_cons_self (operation : Operation) (answer : Option ApiError) :
    answersTo operation ((⟨operation, key⟩, answer) :: answers) =
      answer :: answersTo operation answers := by
  simp [answersTo]

theorem answersTo_cons_of_ne (h : operation ≠ other) (answer : Option ApiError) :
    answersTo other ((⟨operation, key⟩, answer) :: answers) = answersTo other answers := by
  simp [answersTo, h]

theorem takenBy_cons_none (operation other : Operation) :
    takenBy other ((⟨operation, key⟩, none) :: answers) = takenBy other answers := by
  unfold takenBy
  by_cases h : operation = other
  · subst h
    rw [answersTo_cons_self, List.filterMap_cons_none rfl]
  · rw [answersTo_cons_of_ne key answers h]

theorem length_takenBy_cons_some (operation : Operation) (error : ApiError) (other : Operation) :
    (takenBy other ((⟨operation, key⟩, some error) :: answers)).length =
      if other = operation then (takenBy other answers).length + 1
      else (takenBy other answers).length := by
  unfold takenBy
  split
  · next h =>
    subst h
    rw [answersTo_cons_self, List.filterMap_cons_some (f := id) rfl, List.length_cons]
  · next h => rw [answersTo_cons_of_ne key answers (Ne.symm h)]

end Answers

theorem runFaults_inject (operation : Operation) (error : ApiError) (events : List FaultEvent)
    (server : Server) :
    server.runFaults (.inject operation error :: events) =
      (server.injectFault operation error).runFaults events := rfl

theorem runFaults_receive (operation : Operation) (key : Key) (events : List FaultEvent)
    (server : Server) :
    server.runFaults (.receive operation key :: events) =
      ((⟨operation, key⟩, (server.receive operation key).1) ::
          ((server.receive operation key).2.runFaults events).1,
        ((server.receive operation key).2.runFaults events).2) := rfl

/-- The requests of an operation are answered by the queue of the operation. -/
theorem runFaults_queue (events : List FaultEvent) (server : Server) (operation : Operation) :
    (answersTo operation (server.runFaults events).1,
        faultsOf operation (server.runFaults events).2.faults) =
      QueueEvent.run (events.filterMap (FaultEvent.forQueue? operation))
        (faultsOf operation server.faults) := by
  induction events generalizing server with
  | nil => rfl
  | cons event events ih =>
      cases event with
      | inject other error =>
          have hinjected : (server.injectFault other error).faults =
              server.faults ++ [(other, error)] := rfl
          rw [runFaults_inject, ih, hinjected, faultsOf_append]
          by_cases hsame : other = operation
          · subst hsame
            have hevent : FaultEvent.forQueue? other (.inject other error) = some (.put error) :=
              if_pos rfl
            rw [List.filterMap_cons_some hevent, QueueEvent.run, faultsOf_cons_self]
            rfl
          · have hevent : FaultEvent.forQueue? operation (.inject other error) = none :=
              if_neg hsame
            rw [List.filterMap_cons_none hevent, faultsOf_cons_of_ne hsame]
            simp [faultsOf]
      | receive other key =>
          have hrest := ih (server.receive other key).2
          rw [faultsOf_receive] at hrest
          rw [runFaults_receive]
          by_cases hsame : other = operation
          · subst hsame
            have hevent : FaultEvent.forQueue? other (.receive other key) = some .ask := if_pos rfl
            rw [if_pos rfl] at hrest
            dsimp only
            rw [List.filterMap_cons_some hevent, QueueEvent.run_ask, answersTo_cons_self,
              fst_receive, ← hrest]
          · have hevent : FaultEvent.forQueue? operation (.receive other key) = none :=
              if_neg hsame
            rw [if_neg hsame] at hrest
            dsimp only
            rw [List.filterMap_cons_none hevent, answersTo_cons_of_ne _ _ hsame, hrest]

/-- What is put into the queue of an operation are the injected faults of the operation. -/
theorem puts_eq_faultsOf (events : List FaultEvent) (operation : Operation) :
    (events.filterMap (FaultEvent.forQueue? operation)).filterMap QueueEvent.put? =
      faultsOf operation (events.filterMap FaultEvent.fault?) := by
  induction events with
  | nil => rfl
  | cons event events ih =>
      cases event with
      | inject other error =>
          by_cases hsame : other = operation
          · subst hsame
            simp [FaultEvent.forQueue?, FaultEvent.fault?, QueueEvent.put?, ih]
          · simp [FaultEvent.forQueue?, FaultEvent.fault?, hsame, faultsOf_cons_of_ne hsame, ih]
      | receive other key =>
          by_cases hsame : other = operation <;>
            simp [FaultEvent.forQueue?, FaultEvent.fault?, QueueEvent.put?, List.filterMap_cons,
              hsame, ih]

/-- Requests are answered one by one, and recorded. -/
theorem records_runFaults (events : List FaultEvent) (server : Server) :
    (server.runFaults events).1.map (·.1) = events.filterMap FaultEvent.record? ∧
      (server.runFaults events).2.requests =
        server.requests ++ events.filterMap FaultEvent.record? := by
  induction events generalizing server with
  | nil => simp [runFaults]
  | cons event events ih =>
      cases event with
      | inject operation error => exact ih (server.injectFault operation error)
      | receive operation key =>
          obtain ⟨hanswered, hrecorded⟩ := ih (server.receive operation key).2
          rw [receive_requests, List.append_assoc] at hrecorded
          rw [runFaults_receive]
          exact ⟨congrArg (_ :: ·) hanswered, hrecorded⟩

/-- Nothing but the faults and the record is touched. -/
theorem sameObjects_runFaults (events : List FaultEvent) (server : Server) :
    SameObjects (server.runFaults events).2 server := by
  induction events generalizing server with
  | nil => exact SameObjects.refl server
  | cons event events ih =>
      cases event with
      | inject operation error =>
          have hinjected : SameObjects (server.injectFault operation error) server :=
            ⟨rfl, rfl, rfl, rfl, rfl, rfl⟩
          exact (ih (server.injectFault operation error)).trans hinjected
      | receive operation key =>
          exact (ih (server.receive operation key).2).trans
            (sameObjects_receive operation key server)

/-! ## The faults that are left -/

theorem withoutOldest_of_none {counts : Operation → Nat} (h : ∀ operation, counts operation = 0)
    (faults : List (Operation × ApiError)) : withoutOldest counts faults = faults := by
  induction faults with
  | nil => rfl
  | cons fault faults ih => rw [withoutOldest, if_pos (h fault.1), ih]

theorem withoutOldest_sublist (counts : Operation → Nat) (faults : List (Operation × ApiError)) :
    (withoutOldest counts faults).Sublist faults := by
  induction faults generalizing counts with
  | nil => exact List.Sublist.slnil
  | cons fault faults ih =>
      rw [withoutOldest]
      split
      · exact (ih counts).cons_cons fault
      · exact (ih _).cons fault

/-- To take the oldest fault of an operation away is to count one more of it. -/
theorem withoutOldest_of_split {operation : Operation} {earlier : List (Operation × ApiError)}
    (hearlier : ∀ fault ∈ earlier, fault.1 ≠ operation) {counts more : Operation → Nat}
    (hmore : ∀ other, more other = if other = operation then counts other + 1 else counts other)
    (error : ApiError) (later : List (Operation × ApiError)) :
    withoutOldest more (earlier ++ (operation, error) :: later) =
      withoutOldest counts (earlier ++ later) := by
  induction earlier generalizing counts more with
  | nil =>
      have hone : more operation ≠ 0 := by rw [hmore, if_pos rfl]; omega
      rw [List.nil_append, List.nil_append, withoutOldest, if_neg hone]
      congr 1
      funext other
      have hother := hmore other
      split <;> simp_all
  | cons fault earlier ih =>
      obtain ⟨hfirst, hrest⟩ := List.forall_mem_cons.1 hearlier
      have hsame : more fault.1 = counts fault.1 := by rw [hmore, if_neg hfirst]
      rw [List.cons_append, List.cons_append, withoutOldest, withoutOldest, hsame]
      split
      · rw [ih hrest hmore]
      · refine ih hrest fun other => ?_
        have hother := hmore other
        by_cases hname : other = fault.1
        · subst hname
          rw [if_pos rfl, if_pos rfl, if_neg hfirst, hsame]
        · rw [if_neg hname, if_neg hname]
          exact hother

/-- What is gone was taken from the front of its queue. -/
theorem left_runFaults (events : List FaultEvent) (server : Server) :
    (server.runFaults events).2.faults =
      withoutOldest (fun operation => (takenBy operation (server.runFaults events).1).length)
        (server.faults ++ events.filterMap FaultEvent.fault?) := by
  induction events generalizing server with
  | nil =>
      rw [List.filterMap_nil, List.append_nil]
      exact (withoutOldest_of_none (fun _ => rfl) server.faults).symm
  | cons event events ih =>
      cases event with
      | inject operation error =>
          rw [runFaults_inject, ih]
          simp [injectFault, FaultEvent.fault?]
      | receive operation key =>
          have hevent : FaultEvent.fault? (.receive operation key) = none := rfl
          rw [runFaults_receive, ih, List.filterMap_cons_none hevent]
          dsimp only
          rcases receive_cases operation key server with
            ⟨-, hreceive⟩ | ⟨earlier, error, later, hfaults, hearlier, hreceive⟩
          · rw [hreceive]
            simp only [takenBy_cons_none]
            rfl
          · have hleft : ((server.noted [⟨operation, key⟩]).withFaults (earlier ++ later)).faults =
                earlier ++ later := rfl
            rw [hreceive, hfaults, hleft, List.append_assoc, List.append_assoc, List.cons_append]
            refine (withoutOldest_of_split hearlier ?_ error _).symm
            exact length_takenBy_cons_some key _ operation error

/-! ## Queues -/

/-- What becomes of injected faults and received requests, as one queue for each operation. -/
structure Queued (events : List FaultEvent) (before : Server)
    (answers : List (RequestRecord × Option ApiError)) (after : Server) : Prop where
  /-- Each request is answered once, in turn. -/
  answered : answers.map (·.1) = events.filterMap FaultEvent.record?
  /-- The record goes on with the requests that were received, and nothing else. -/
  recorded : after.requests = before.requests ++ events.filterMap FaultEvent.record?
  /-- The requests of an operation are answered by a queue that is told of this operation only. -/
  queued : ∀ operation,
    (answersTo operation answers, faultsOf operation after.faults) =
      QueueEvent.run (events.filterMap (FaultEvent.forQueue? operation))
        (faultsOf operation before.faults)
  /-- The faults of an operation are taken in the order in which they were injected, each of them at
  most once. -/
  inOrder : ∀ operation,
    takenBy operation answers ++ faultsOf operation after.faults =
      faultsOf operation (before.faults ++ events.filterMap FaultEvent.fault?)
  /-- Of the list of all faults nothing is gone but those that were taken. -/
  left : after.faults =
    withoutOldest (fun operation => (takenBy operation answers).length)
      (before.faults ++ events.filterMap FaultEvent.fault?)
  /-- What is left is in the order in which it was injected, also across operations. -/
  keepsOrder : after.faults.Sublist (before.faults ++ events.filterMap FaultEvent.fault?)
  objects : SameObjects after before

/-- However faults are injected between the requests, each operation has a queue of its own. -/
theorem faults_queued (events : List FaultEvent) (server : Server) :
    Queued events server (server.runFaults events).1 (server.runFaults events).2 where
  answered := (records_runFaults events server).1
  recorded := (records_runFaults events server).2
  queued := runFaults_queue events server
  inOrder operation := by
    obtain ⟨hanswers, hleft⟩ := Prod.mk.inj (runFaults_queue events server operation)
    rw [takenBy, hanswers, hleft, QueueEvent.run_inOrder, puts_eq_faultsOf, faultsOf_append]
  left := left_runFaults events server
  keepsOrder := by
    rw [left_runFaults]
    exact withoutOldest_sublist _ _
  objects := sameObjects_runFaults events server

/-- A patch takes its fault out of the middle, and the scaler is read with the first one of two. -/
example :
    let answers := (runFaults [.inject .getScaler .timeout, .inject .patchDeployment .conflict,
      .inject .getScaler .other, .receive .patchDeployment ⟨"shop", "web"⟩,
      .receive .getScaler ⟨"shop", "web"⟩, .receive .patchDeployment ⟨"shop", "web"⟩] {}).1
    answers.map (·.2) = [some .conflict, some .timeout, none] := by
  rfl

end Server

end ReplicaKeeper
