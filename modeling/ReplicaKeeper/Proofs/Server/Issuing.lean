import ReplicaKeeper.Proofs.Server.Versions

/-!
# Versions of all kinds

Scalers, workloads and Deployments draw their versions from one counter.  Every write that a client
or a reconcile brings about puts an object with the next version into one place, `Writes`; so the
versions on a server are numbers up to its counter that no two objects share, and what takes the
place of another object has a larger one than was drawn before.  `issuing_after` says so for every
history.
-/

set_option autoImplicit false

namespace ReplicaKeeper

open Entries

/-! ## Histories -/

/-- What happens to a server. -/
inductive Act where
  | client (deed : Deed)
  | reconcile (now : Time) (config : Config) (key : Key)

/-- The server after an act. -/
def Act.run (server : Server) : Act → Server
  | client deed => deed.run server
  | reconcile now config key => (Reconcile.reconcile now config Server.store key server).2

/-- The server that a history leaves of the empty one. -/
def Server.after (acts : List Act) : Server := acts.foldl Act.run {}

/-! ## Places -/

/-- Where an object is stored. -/
inductive Place where
  | scaler (key : Key)
  | workload (key : Key)
  | deployment (key : Key)
  deriving DecidableEq

/-- A stored object of any kind. -/
inductive Stored where
  | scaler (scaler : Scaler)
  | workload (workload : Workload)
  | deployment (deployment : Deployment)

def Stored.version? : Stored → Option String
  | scaler object => object.metadata.resourceVersion
  | workload object => object.metadata.resourceVersion
  | deployment object => object.metadata.resourceVersion

namespace Server

/-- The object in a place. -/
def stored? (server : Server) : Place → Option Stored
  | .scaler key => (get? server.scalers key).map .scaler
  | .workload key => (get? server.workloads key).map .workload
  | .deployment key => (get? server.deployments key).map .deployment

section Places

variable {before after : Server}

/-- With the same objects, every place holds what it held. -/
theorem SameObjects.stored?_eq (h : SameObjects after before) (place : Place) :
    after.stored? place = before.stored? place := by
  cases place with
  | scaler key => rw [stored?, h.scalers, stored?]
  | workload key => rw [stored?, h.workloads, stored?]
  | deployment key => rw [stored?, h.deployments, stored?]

theorem stored?_insert_scaler {key : Key} {scaler : Scaler}
    (hscalers : after.scalers = insert key scaler before.scalers)
    (hworkloads : after.workloads = before.workloads)
    (hdeployments : after.deployments = before.deployments) (other : Place) :
    after.stored? other =
      if .scaler key = other then some (.scaler scaler) else before.stored? other := by
  cases other with
  | scaler other =>
      rw [stored?, hscalers, get?_insert, stored?]
      by_cases hkey : key = other <;> simp [hkey]
  | workload other => rw [stored?, hworkloads, if_neg Place.noConfusion, stored?]
  | deployment other => rw [stored?, hdeployments, if_neg Place.noConfusion, stored?]

theorem stored?_insert_workload {key : Key} {workload : Workload}
    (hscalers : after.scalers = before.scalers)
    (hworkloads : after.workloads = insert key workload before.workloads)
    (hdeployments : after.deployments = before.deployments) (other : Place) :
    after.stored? other =
      if .workload key = other then some (.workload workload) else before.stored? other := by
  cases other with
  | scaler other => rw [stored?, hscalers, if_neg Place.noConfusion, stored?]
  | workload other =>
      rw [stored?, hworkloads, get?_insert, stored?]
      by_cases hkey : key = other <;> simp [hkey]
  | deployment other => rw [stored?, hdeployments, if_neg Place.noConfusion, stored?]

theorem stored?_insert_deployment {key : Key} {deployment : Deployment}
    (hscalers : after.scalers = before.scalers)
    (hworkloads : after.workloads = before.workloads)
    (hdeployments : after.deployments = insert key deployment before.deployments) (other : Place) :
    after.stored? other =
      if .deployment key = other then some (.deployment deployment) else before.stored? other := by
  cases other with
  | scaler other => rw [stored?, hscalers, if_neg Place.noConfusion, stored?]
  | workload other => rw [stored?, hworkloads, if_neg Place.noConfusion, stored?]
  | deployment other =>
      rw [stored?, hdeployments, get?_insert, stored?]
      by_cases hkey : key = other <;> simp [hkey]

theorem stored?_deleteScaler (server : Server) (key : Key) (other : Place) :
    (server.deleteScaler key).2.stored? other =
      if .scaler key = other then none else server.stored? other := by
  cases other with
  | scaler other =>
      rw [stored?, deleteScaler, get?_erase, stored?]
      by_cases hkey : key = other <;> simp [hkey]
  | workload other => exact (if_neg Place.noConfusion).symm
  | deployment other => exact (if_neg Place.noConfusion).symm

end Places

/-! ## Writes -/

/-- A server before and after some writes.  Each of them draws a version from the counter. -/
inductive Writes : Server → Server → Prop
  /-- All objects stay. -/
  | kept {before after : Server} (hcounter : after.versionCounter = before.versionCounter)
      (hplaces : ∀ place, after.stored? place = before.stored? place) : Writes before after
  | stored {before after : Server} (place : Place) (object : Stored)
      (hcounter : after.versionCounter = before.versionCounter + 1)
      (hversion : object.version? = some (toString after.versionCounter))
      (hplaces : ∀ other, after.stored? other =
        if place = other then some object else before.stored? other) : Writes before after
  | erased {before after : Server} (place : Place)
      (hcounter : after.versionCounter = before.versionCounter)
      (hplaces : ∀ other, after.stored? other =
        if place = other then none else before.stored? other) : Writes before after
  | trans {first second third : Server} (hfirst : Writes first second)
      (hsecond : Writes second third) : Writes first third

/-- The version was drawn while the counter went from one value to the other. -/
def DrawnAfter (counter later : Nat) (version : Option String) : Prop :=
  ∃ n, counter < n ∧ n ≤ later ∧ version = some (toString n)

/-- A version that was drawn up to some point is not drawn again later. -/
theorem DrawnAfter.ne {first second third : Nat} {earlier version : Option String}
    (h : DrawnAfter first second earlier) (hlater : DrawnAfter second third version) :
    earlier ≠ version := by
  obtain ⟨m, -, hm, rfl⟩ := h
  obtain ⟨n, hn, -, rfl⟩ := hlater
  intro heq
  have hsame := toString_nat_inj (Option.some.inj heq)
  omega

/-- Versions are numbers up to the counter, and no two objects share one. -/
structure Numbered (server : Server) : Prop where
  drawn : ∀ place object, server.stored? place = some object →
    DrawnAfter 0 server.versionCounter object.version?
  distinct : ∀ place object another other, server.stored? place = some object →
    server.stored? another = some other → other.version? = object.version? → another = place

/-- Versions stay as they are while objects do nothing but go. -/
theorem Numbered.of_stood {before after : Server} (h : before.Numbered)
    (hcounter : after.versionCounter = before.versionCounter)
    (hstood : ∀ place object, after.stored? place = some object →
      before.stored? place = some object) : after.Numbered where
  drawn place object hobject := by
    rw [hcounter]
    exact h.drawn place object (hstood place object hobject)
  distinct place object another other hobject hother hsame :=
    h.distinct place object another other (hstood place object hobject)
      (hstood another other hother) hsame

theorem numbered_empty : Numbered {} := by
  have hnone (place : Place) : Server.stored? {} place = none := by
    cases place <;> rfl
  constructor
  · intro place object hobject
    rw [hnone] at hobject
    cases hobject
  · intro place object another other hobject
    rw [hnone] at hobject
    cases hobject

namespace Writes

variable {before after : Server}

theorem le (h : Writes before after) : before.versionCounter ≤ after.versionCounter := by
  induction h with
  | kept hcounter hplaces => exact Nat.le_of_eq hcounter.symm
  | stored place object hcounter hversion hplaces => omega
  | erased place hcounter hplaces => exact Nat.le_of_eq hcounter.symm
  | trans hfirst hsecond ihfirst ihsecond => exact Nat.le_trans ihfirst ihsecond

/-- What is stored afterwards was there before, or has a version that was drawn meanwhile. -/
theorem stood_or_drawn (h : Writes before after) {place : Place} {object : Stored}
    (hobject : after.stored? place = some object) :
    before.stored? place = some object ∨
      DrawnAfter before.versionCounter after.versionCounter object.version? := by
  induction h with
  | kept hcounter hplaces => exact .inl ((hplaces place).symm.trans hobject)
  | stored written fresh hcounter hversion hplaces =>
      rw [hplaces] at hobject
      split at hobject
      · cases hobject
        exact .inr ⟨_, by omega, Nat.le_refl _, hversion⟩
      · exact .inl hobject
  | erased gone hcounter hplaces =>
      rw [hplaces] at hobject
      split at hobject
      · cases hobject
      · exact .inl hobject
  | trans hfirst hsecond ihfirst ihsecond =>
      rcases ihsecond hobject with hbetween | ⟨n, hlt, hle, hversion⟩
      · rcases ihfirst hbetween with hstood | ⟨n, hlt, hle, hversion⟩
        · exact .inl hstood
        · exact .inr ⟨n, hlt, Nat.le_trans hle hsecond.le, hversion⟩
      · exact .inr ⟨n, Nat.lt_of_le_of_lt hfirst.le hlt, hle, hversion⟩

/-- Writes keep the versions apart, as each of them puts a fresh one into a single place. -/
theorem numbered (h : Writes before after) (hnumbered : before.Numbered) : after.Numbered := by
  induction h with
  | kept hcounter hplaces =>
      refine hnumbered.of_stood hcounter fun place object hobject => ?_
      rw [← hplaces]
      exact hobject
  | @stored before after written fresh hcounter hversion hplaces =>
      have hdrawn : DrawnAfter before.versionCounter after.versionCounter fresh.version? :=
        ⟨_, by omega, Nat.le_refl _, hversion⟩
      constructor
      · intro place object hobject
        rw [hplaces] at hobject
        split at hobject
        · cases hobject
          exact ⟨_, by omega, Nat.le_refl _, hversion⟩
        · obtain ⟨n, hpos, hle, hn⟩ := hnumbered.drawn place object hobject
          exact ⟨n, hpos, by omega, hn⟩
      · intro place object another other hobject hother hsame
        rw [hplaces] at hobject hother
        split at hobject
        · next hplace =>
          cases hobject
          split at hother
          · next hanother => exact hanother.symm.trans hplace
          · have hold := hnumbered.drawn another other hother
            exact absurd hsame (hold.ne hdrawn)
        · have hold := hnumbered.drawn place object hobject
          split at hother
          · cases hother
            exact absurd hsame.symm (hold.ne hdrawn)
          · exact hnumbered.distinct place object another other hobject hother hsame
  | erased gone hcounter hplaces =>
      refine hnumbered.of_stood hcounter fun place object hobject => ?_
      rw [hplaces] at hobject
      split at hobject
      · cases hobject
      · exact hobject
  | trans hfirst hsecond ihfirst ihsecond => exact ihsecond (ihfirst hnumbered)

/-! ### Single writes -/

theorem of_sameObjects (h : SameObjects after before) : Writes before after :=
  .kept h.versionCounter h.stored?_eq

section Single

variable (hcounter : after.versionCounter = before.versionCounter + 1)

include hcounter

theorem of_scaler {key : Key} {scaler : Scaler}
    (hversion : scaler.metadata.resourceVersion = some (toString (before.versionCounter + 1)))
    (hscalers : after.scalers = insert key scaler before.scalers)
    (hworkloads : after.workloads = before.workloads)
    (hdeployments : after.deployments = before.deployments) : Writes before after := by
  rw [← hcounter] at hversion
  exact .stored (.scaler key) (.scaler scaler) hcounter hversion
    (stored?_insert_scaler hscalers hworkloads hdeployments)

theorem of_workload {key : Key} {workload : Workload}
    (hversion : workload.metadata.resourceVersion = some (toString (before.versionCounter + 1)))
    (hscalers : after.scalers = before.scalers)
    (hworkloads : after.workloads = insert key workload before.workloads)
    (hdeployments : after.deployments = before.deployments) : Writes before after := by
  rw [← hcounter] at hversion
  exact .stored (.workload key) (.workload workload) hcounter hversion
    (stored?_insert_workload hscalers hworkloads hdeployments)

theorem of_deployment {key : Key} {deployment : Deployment}
    (hversion : deployment.metadata.resourceVersion = some (toString (before.versionCounter + 1)))
    (hscalers : after.scalers = before.scalers)
    (hworkloads : after.workloads = before.workloads)
    (hdeployments : after.deployments = insert key deployment before.deployments) :
    Writes before after := by
  rw [← hcounter] at hversion
  exact .stored (.deployment key) (.deployment deployment) hcounter hversion
    (stored?_insert_deployment hscalers hworkloads hdeployments)

end Single

end Writes

/-! ## What clients write -/

section Clients

variable (server : Server)

theorem workloads_stamp (metadata : ObjectMeta) :
    (server.stamp metadata).2.workloads = server.workloads := by
  unfold stamp
  cases metadata.uid <;> rfl

theorem writes_createScaler (scaler : Scaler) : Writes server (server.createScaler scaler).2 :=
  .of_scaler (versionCounter_stamp scaler.metadata server)
    (resourceVersion_stamp scaler.metadata server)
    (congrArg (insert _ _) (scalers_stamp scaler.metadata server))
    (workloads_stamp server scaler.metadata) (deployments_stamp scaler.metadata server)

theorem writes_createWorkload (workload : Workload) :
    Writes server (server.createWorkload workload).2 :=
  .of_workload (versionCounter_stamp workload.metadata server)
    (resourceVersion_stamp workload.metadata server) (scalers_stamp workload.metadata server)
    (congrArg (insert _ _) (workloads_stamp server workload.metadata))
    (deployments_stamp workload.metadata server)

theorem writes_createDeployment (deployment : Deployment) :
    Writes server (server.createDeployment deployment).2 :=
  .of_deployment (versionCounter_stamp deployment.metadata server)
    (resourceVersion_stamp deployment.metadata server) (scalers_stamp deployment.metadata server)
    (workloads_stamp server deployment.metadata)
    (congrArg (insert _ _) (deployments_stamp deployment.metadata server))

theorem writes_deleteScaler (key : Key) : Writes server (server.deleteScaler key).2 :=
  .erased (.scaler key) rfl (server.stored?_deleteScaler key)

theorem writes_runBeforePatch (key : Key) (stored : Deployment) :
    Writes server (server.runBeforePatch key stored).2 := by
  unfold runBeforePatch
  cases server.beforePatch with
  | none => exact .of_sameObjects (.refl server)
  | some hook => exact .of_deployment rfl rfl rfl rfl rfl

theorem writes_storePatched (key : Key) (current merged : Deployment) :
    Writes server (server.storePatched key current merged).2 := by
  unfold storePatched
  split
  · exact .of_sameObjects (.refl server)
  · exact .of_deployment rfl rfl rfl rfl rfl

theorem composes_writes : Composes Writes := ⟨.of_sameObjects, .trans⟩

theorem writes_send (request : Request) : Writes server (store.send request server).2 :=
  composes_writes.send writes_runBeforePatch writes_storePatched
    (fun _ _ _ _ => .of_scaler rfl rfl rfl rfl rfl) request server

theorem writes_deed (deed : Deed) : Writes server (deed.run server) := by
  cases deed with
  | createScaler scaler => exact server.writes_createScaler scaler
  | createWorkload workload => exact server.writes_createWorkload workload
  | createDeployment deployment => exact server.writes_createDeployment deployment
  | deleteScaler key => exact server.writes_deleteScaler key
  | readScaler key => exact .of_sameObjects (sameObjects_getScaler key server)
  | send request => exact server.writes_send request
  | injectFault operation error => exact .kept rfl fun place => by cases place <;> rfl
  | onBeforePatch hook => exact .kept rfl fun place => by cases place <;> rfl

/-- A reconcile writes by its requests alone. -/
theorem writes_reconcile (now : Time) (config : Config) (key : Key) :
    Writes server (Reconcile.reconcile now config store key server).2 :=
  Reconcile.reconcile_keeps (P := Writes server)
    (fun key world h => h.trans (.of_sameObjects (sameObjects_getScaler key world)))
    (fun request world h => h.trans (world.writes_send request)) now config key
    (.of_sameObjects (.refl server))

theorem writes_run (act : Act) : Writes server (act.run server) := by
  cases act with
  | client deed => exact server.writes_deed deed
  | reconcile now config key => exact server.writes_reconcile now config key

theorem writes_foldl (acts : List Act) : Writes server (acts.foldl Act.run server) := by
  induction acts generalizing server with
  | nil => exact .of_sameObjects (.refl server)
  | cons act acts ih => exact (server.writes_run act).trans (ih (act.run server))

end Clients

/-! ## Versions over a history -/

/-- How versions are given out up to the end of a history, and from there on. -/
structure Issuing (acts : List Act) : Prop where
  /-- Versions are numbers up to the counter, and no two objects share one. -/
  numbered : (after acts).Numbered
  /-- An object that an act puts into a place has a larger version than all that were drawn. -/
  fresh : ∀ act place object, (after (acts ++ [act])).stored? place = some object →
    (after acts).stored? place ≠ some object →
    DrawnAfter (after acts).versionCounter (after (acts ++ [act])).versionCounter object.version?
  /-- The same version means the same place and the same content, however much later. -/
  lasting : ∀ more place object another other, (after acts).stored? place = some object →
    (after (acts ++ more)).stored? another = some other → other.version? = object.version? →
    another = place ∧ other = object

theorem writes_after_append (acts more : List Act) :
    Writes (after acts) (after (acts ++ more)) := by
  rw [after, after, List.foldl_append]
  exact writes_foldl _ more

theorem issuing_after (acts : List Act) : Issuing acts := by
  have hnumbered : (after acts).Numbered := (writes_foldl {} acts).numbered numbered_empty
  refine ⟨hnumbered, fun act place object hobject hchanged => ?_,
    fun more place object another other hobject hother hsame => ?_⟩
  · exact ((writes_after_append acts [act]).stood_or_drawn hobject).resolve_left hchanged
  · have hold := hnumbered.drawn place object hobject
    rcases (writes_after_append acts more).stood_or_drawn hother with hstood | hdrawn
    · obtain rfl := hnumbered.distinct place object another other hobject hstood hsame
      exact ⟨rfl, Option.some.inj (hstood.symm.trans hobject)⟩
    · exact absurd hsame.symm (hold.ne hdrawn)

end Server

end ReplicaKeeper
