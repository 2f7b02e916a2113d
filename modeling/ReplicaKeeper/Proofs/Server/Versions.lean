import ReplicaKeeper.Proofs.Server.Deeds

/-!
# Resource versions

Every write draws a fresh version from a counter, so a version stands for one content forever: an
object that has the version of a `Known` one is that object, `Evolves.known`, and an object that is
gone does not come back, `Evolves.gone`.  Whatever clients do, scalers and Deployments evolve in this
way, `evolves_foldl`; so in a reachable server versions stand for what is stored under them,
`Reachable.versioned`.
-/

set_option autoImplicit false

namespace ReplicaKeeper

open Entries

/-- Numbers are told apart by their decimal texts. -/
theorem toString_nat_inj {m n : Nat} (h : toString m = toString n) : m = n := by
  rw [Nat.toString_eq_ofList_toDigits, Nat.toString_eq_ofList_toDigits] at h
  have hdigits : Nat.toDigits 10 m = Nat.toDigits 10 n := String.ofList_injective h
  have hread := congrArg (fun digits => Nat.ofDigitChars 10 digits 0) hdigits
  simpa only [Nat.ofDigitChars_ten_toDigits] using hread

/-! ## Objects that evolve -/

section Evolution

variable {α : Type} {versionOf : α → Option String}

/-- The objects of one kind, and the counter of versions, before and after some writes. -/
inductive Evolves (versionOf : α → Option String) :
    Nat → Entries Key α → Nat → Entries Key α → Prop
  /-- Versions may be drawn for objects of other kinds. -/
  | kept {counter later : Nat} {objects : Entries Key α} (hle : counter ≤ later) :
      Evolves versionOf counter objects later objects
  | stored {counter : Nat} {objects : Entries Key α} (key : Key) {object : α}
      (hversion : versionOf object = some (toString (counter + 1))) :
      Evolves versionOf counter objects (counter + 1) (insert key object objects)
  | erased {counter : Nat} {objects : Entries Key α} (key : Key) :
      Evolves versionOf counter objects counter (erase key objects)
  | trans {first second third : Nat} {before between after : Entries Key α}
      (hfirst : Evolves versionOf first before second between)
      (hsecond : Evolves versionOf second between third after) :
      Evolves versionOf first before third after

/-- The version was drawn already. -/
def Drawn (counter : Nat) (version : Option String) : Prop :=
  ∃ n, n ≤ counter ∧ version = some (toString n)

theorem Drawn.ne_next {counter : Nat} {version : Option String} (h : Drawn counter version) :
    version ≠ some (toString (counter + 1)) := by
  obtain ⟨n, hle, rfl⟩ := h
  intro heq
  have hsame := toString_nat_inj (Option.some.inj heq)
  omega

/-- The version of the object was drawn for it, and stands for nothing else. -/
structure Known (versionOf : α → Option String) (counter : Nat) (objects : Entries Key α)
    (object : α) : Prop where
  drawn : Drawn counter (versionOf object)
  unique : ∀ key other, get? objects key = some other → versionOf other = versionOf object →
    other = object

variable {counter later : Nat} {objects after : Entries Key α}

theorem Evolves.le (h : Evolves versionOf counter objects later after) : counter ≤ later := by
  induction h with
  | kept hle => exact hle
  | stored key hversion => exact Nat.le_succ _
  | erased key => exact Nat.le_refl _
  | trans hfirst hsecond ihfirst ihsecond => exact Nat.le_trans ihfirst ihsecond

theorem Evolves.drawn (h : Evolves versionOf counter objects later after)
    {version : Option String} (hdrawn : Drawn counter version) : Drawn later version := by
  obtain ⟨n, hle, hversion⟩ := hdrawn
  exact ⟨n, Nat.le_trans hle h.le, hversion⟩

/-- A known object stays known, whether it stays or not. -/
theorem Evolves.known (h : Evolves versionOf counter objects later after) {object : α}
    (hknown : Known versionOf counter objects object) : Known versionOf later after object := by
  induction h with
  | @kept counter later objects hle =>
      have hevolves : Evolves versionOf counter objects later objects := .kept hle
      exact ⟨hevolves.drawn hknown.drawn, hknown.unique⟩
  | @stored counter objects key stored hversion =>
      have hevolves : Evolves versionOf counter objects (counter + 1) (insert key stored objects) :=
        .stored key hversion
      refine ⟨hevolves.drawn hknown.drawn, fun other found hfound hsame => ?_⟩
      rw [get?_insert] at hfound
      split at hfound
      · cases hfound
        exact absurd (hsame.symm.trans hversion) hknown.drawn.ne_next
      · exact hknown.unique other found hfound hsame
  | erased key =>
      refine ⟨hknown.drawn, fun other found hfound hsame => ?_⟩
      rw [get?_erase] at hfound
      split at hfound
      · cases hfound
      · exact hknown.unique other found hfound hsame
  | trans hfirst hsecond ihfirst ihsecond => exact ihsecond (ihfirst hknown)

/-- All objects stay known. -/
theorem Evolves.all_known (h : Evolves versionOf counter objects later after)
    (hknown : ∀ key object, get? objects key = some object →
      Known versionOf counter objects object) :
    ∀ key object, get? after key = some object → Known versionOf later after object := by
  induction h with
  | kept hle =>
      intro key object hobject
      exact (Evolves.kept hle).known (hknown key object hobject)
  | @stored counter objects key stored hversion =>
      intro other object hobject
      have hevolves : Evolves versionOf counter objects (counter + 1) (insert key stored objects) :=
        .stored key hversion
      have hstored := hobject
      rw [get?_insert] at hobject
      split at hobject
      · next hother =>
        cases hobject
        refine ⟨⟨counter + 1, Nat.le_refl _, hversion⟩, fun another found hfound hsame => ?_⟩
        rw [get?_insert] at hfound
        split at hfound
        · exact (Option.some.inj hfound).symm
        · have hold := (hknown another found hfound).drawn
          exact absurd (hsame.trans hversion) hold.ne_next
      · exact hevolves.known (hknown other object hobject)
  | erased key =>
      intro other object hobject
      rw [get?_erase] at hobject
      split at hobject
      · cases hobject
      · exact (Evolves.erased key).known (hknown other object hobject)
  | trans hfirst hsecond ihfirst ihsecond => exact ihsecond (ihfirst hknown)

/-- An object that is gone does not come back. -/
theorem Evolves.gone (h : Evolves versionOf counter objects later after) {key : Key} {object : α}
    (hdrawn : Drawn counter (versionOf object)) (hgone : get? objects key ≠ some object) :
    get? after key ≠ some object := by
  induction h with
  | kept hle => exact hgone
  | @stored counter objects other stored hversion =>
      intro hback
      rw [get?_insert] at hback
      split at hback
      · cases hback
        exact hdrawn.ne_next hversion
      · exact hgone hback
  | erased other =>
      intro hback
      rw [get?_erase] at hback
      split at hback
      · cases hback
      · exact hgone hback
  | trans hfirst hsecond ihfirst ihsecond =>
      exact ihsecond (hfirst.drawn hdrawn) (ihfirst hdrawn hgone)

/-- An object that is there afterwards, and has been drawn before, was there before. -/
theorem Evolves.stood (h : Evolves versionOf counter objects later after) {key : Key} {object : α}
    (hdrawn : Drawn counter (versionOf object)) (hafter : get? after key = some object) :
    get? objects key = some object :=
  Classical.byContradiction fun hgone => h.gone hdrawn hgone hafter

end Evolution

namespace Server

/-! ## Servers that evolve -/

/-- Scalers and Deployments evolve together with the counter of versions. -/
structure Evolves (before after : Server) : Prop where
  scalers : ReplicaKeeper.Evolves (fun scaler : Scaler => scaler.metadata.resourceVersion)
    before.versionCounter before.scalers after.versionCounter after.scalers
  deployments : ReplicaKeeper.Evolves
    (fun deployment : Deployment => deployment.metadata.resourceVersion)
    before.versionCounter before.deployments after.versionCounter after.deployments

theorem Evolves.of_sameObjects {before after : Server} (h : SameObjects after before) :
    Evolves before after := by
  have hle : before.versionCounter ≤ after.versionCounter := Nat.le_of_eq h.versionCounter.symm
  constructor
  · rw [h.scalers]
    exact .kept hle
  · rw [h.deployments]
    exact .kept hle

theorem Evolves.trans {first second third : Server} (h : Evolves first second)
    (hnext : Evolves second third) : Evolves first third :=
  ⟨h.scalers.trans hnext.scalers, h.deployments.trans hnext.deployments⟩

variable (server : Server)

theorem evolves_createScaler (scaler : Scaler) : Evolves server (server.createScaler scaler).2 := by
  constructor
  · simp only [createScaler, versionCounter_stamp, scalers_stamp]
    exact .stored _ (resourceVersion_stamp scaler.metadata server)
  · simp only [createScaler, versionCounter_stamp, deployments_stamp]
    exact .kept (Nat.le_succ _)

theorem evolves_createWorkload (workload : Workload) :
    Evolves server (server.createWorkload workload).2 := by
  constructor
  · simp only [createWorkload, versionCounter_stamp, scalers_stamp]
    exact .kept (Nat.le_succ _)
  · simp only [createWorkload, versionCounter_stamp, deployments_stamp]
    exact .kept (Nat.le_succ _)

theorem evolves_createDeployment (deployment : Deployment) :
    Evolves server (server.createDeployment deployment).2 := by
  constructor
  · simp only [createDeployment, versionCounter_stamp, scalers_stamp]
    exact .kept (Nat.le_succ _)
  · simp only [createDeployment, versionCounter_stamp, deployments_stamp]
    exact .stored _ (resourceVersion_stamp deployment.metadata server)

theorem evolves_runBeforePatch (key : Key) (stored : Deployment) :
    Evolves server (server.runBeforePatch key stored).2 := by
  unfold runBeforePatch
  cases server.beforePatch with
  | none => exact .of_sameObjects (.refl server)
  | some hook => exact ⟨.kept (Nat.le_succ _), .stored key rfl⟩

theorem evolves_storePatched (key : Key) (current merged : Deployment) :
    Evolves server (server.storePatched key current merged).2 := by
  unfold storePatched
  split
  · exact .of_sameObjects (.refl server)
  · exact ⟨.kept (Nat.le_succ _), .stored key rfl⟩

theorem composes_evolves : Composes Evolves := ⟨.of_sameObjects, .trans⟩

/-- Requests let a server evolve. -/
theorem evolves_send (request : Request) : Evolves server (store.send request server).2 :=
  composes_evolves.send evolves_runBeforePatch evolves_storePatched
    (fun _ key _ _ => ⟨.stored key rfl, .kept (Nat.le_succ _)⟩) request server

/-- Whatever a client does lets a server evolve. -/
theorem evolves_run (deed : Deed) : Evolves server (deed.run server) := by
  cases deed with
  | createScaler scaler => exact server.evolves_createScaler scaler
  | createWorkload workload => exact server.evolves_createWorkload workload
  | createDeployment deployment => exact server.evolves_createDeployment deployment
  | deleteScaler key => exact ⟨.erased key, .kept (Nat.le_refl _)⟩
  | readScaler key => exact .of_sameObjects (sameObjects_getScaler key server)
  | send request => exact server.evolves_send request
  | injectFault operation error => exact ⟨.kept (Nat.le_refl _), .kept (Nat.le_refl _)⟩
  | onBeforePatch hook => exact ⟨.kept (Nat.le_refl _), .kept (Nat.le_refl _)⟩

theorem evolves_foldl (deeds : List Deed) : Evolves server (deeds.foldl Deed.run server) := by
  induction deeds generalizing server with
  | nil => exact .of_sameObjects (.refl server)
  | cons deed deeds ih => exact (server.evolves_run deed).trans (ih (deed.run server))

/-! ## Objects that were stored -/

/-- The scaler is stored, or it was and is gone. -/
abbrev KnowsScaler (scaler : Scaler) : Prop :=
  Known (fun scaler : Scaler => scaler.metadata.resourceVersion) server.versionCounter
    server.scalers scaler

/-- The Deployment is stored, or it was and is gone. -/
abbrev KnowsDeployment (deployment : Deployment) : Prop :=
  Known (fun deployment : Deployment => deployment.metadata.resourceVersion)
    server.versionCounter server.deployments deployment

/-- Versions stand for what is stored under them. -/
structure Versioned : Prop where
  scalers : ∀ key scaler, get? server.scalers key = some scaler → server.KnowsScaler scaler
  deployments : ∀ key deployment, get? server.deployments key = some deployment →
    server.KnowsDeployment deployment

theorem versioned_empty : Versioned {} := by
  constructor
  · intro key scaler hscaler
    cases hscaler
  · intro key deployment hdeployment
    cases hdeployment

variable {server}

theorem Versioned.of_evolves {after : Server} (h : server.Versioned) (hevolves : Evolves server after) :
    after.Versioned :=
  ⟨hevolves.scalers.all_known h.scalers, hevolves.deployments.all_known h.deployments⟩

theorem Reachable.versioned (h : server.Reachable) : server.Versioned := by
  induction h with
  | start => exact versioned_empty
  | @after server deed _ ih => exact ih.of_evolves (server.evolves_run deed)

end Server

end ReplicaKeeper
