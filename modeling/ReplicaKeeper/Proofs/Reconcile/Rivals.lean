import ReplicaKeeper.Proofs.Reconcile.Atomicity
import ReplicaKeeper.Proofs.Reconcile.Race

/-!
# Rivals without the lock

Two scalers may want the same Deployment.  A reconcile refuses a Deployment that another object
controls, but it looks at the copy that it fetched, and a patch sets the owners as a whole.  So the
reference of another controller is lost in one case only, `Overlooks`: it was added after the fetch,
and the patch adds a reference of its own.  `controllers_kept` is the main statement, for every list
of events; `controller_overwritten` is a run in which the case occurs.
-/

set_option autoImplicit false

namespace ReplicaKeeper.Reconcile.System

open Entries

variable {ι : Type} [DecidableEq ι]

/-! ## Copies that are out of date -/

/-- A reconcile fetched a Deployment in its last turn, when neither `present` nor any other rival was
among the owners, and it is about to add its own reference to the owners that it was told. -/
structure Overlooks (configs : ι → Config) (keys : ι → Key) (events : List (Event ι)) (i : ι)
    (key : Key) (present owner : OwnerReference) (fetched : Deployment) : Prop where
  owner_eq : ((after configs keys events).attempts i).owner? = some owner
  fetched_eq : ∃ earlier moment later,
    Answered configs keys events i (.getDeployment key) (.deployment (.ok fetched)) earlier moment
      later ∧
    get? (after configs keys earlier).server.deployments key = some fetched
  missing : present ∉ fetched.metadata.owners
  unrivalled : ∀ other ∈ fetched.metadata.owners, ¬ owner.IsRival other
  adds : owner.place fetched.metadata.owners ≠ fetched.metadata.owners

variable {configs : ι → Config} {keys : ι → Key} {events : List (Event ι)} {i : ι} {now : Time}

/-- Without another writer before the patches there has never been one. -/
theorem beforePatch_earlier {earlier : List (Event ι)} (h : earlier <+: events)
    (hnone : (after configs keys events).server.beforePatch = none) :
    (after configs keys earlier).server.beforePatch = none := by
  obtain ⟨more, rfl⟩ := h
  obtain ⟨deeds, hdeeds⟩ := exists_deeds_foldl configs (after configs keys earlier) more
  rw [after_append, hdeeds] at hnone
  exact Server.beforePatch_of_foldl hnone

/-- Without another writer before the patches, a Deployment is patched under the key under which it
was fetched. -/
theorem Answered.eq_targetKey {asked : Key} {fetched : Deployment} {session : Session}
    {earlier later : List (Event ι)} {moment : Time}
    (h : Answered configs keys events i (.getDeployment asked) (.deployment (.ok fetched)) earlier
      moment later)
    (hsession : (after configs keys events).attempts i = .underWay session)
    (hnone : (after configs keys events).server.beforePatch = none)
    (hstored : get? (after configs keys earlier).server.deployments asked = some fetched) :
    asked = targetKey session.scaler fetched := by
  obtain ⟨before, -, hrequest, hscaler⟩ := h.exists_session hsession
  have hmove := @before.nextStep_move moment (configs i)
  rw [hrequest] at hmove
  have hns := hmove.ns_of_getDeployment
  have hearlier : earlier <+: events := ⟨_, h.events_eq.symm⟩
  have hkey := (reachable_after configs keys earlier).keyed.deployments
    (beforePatch_earlier hearlier hnone) _ _ hstored
  rw [hscaler] at hns
  rw [← hkey] at hns ⊢
  exact congrArg (fun ns => (⟨ns, fetched.metadata.key.name⟩ : Key)) hns

/-- The owners after a patch are the present ones, or the fetched ones with one more. -/
theorem owners_overlaid (scaler : Scaler) (owner : OwnerReference) (fetched met : Deployment) :
    (overlaid scaler owner fetched met).metadata.owners = met.metadata.owners ∨
      (overlaid scaler owner fetched met).metadata.owners = owner.place fetched.metadata.owners ∧
        owner.place fetched.metadata.owners ≠ fetched.metadata.owners := by
  unfold overlaid
  dsimp only
  split
  · exact .inl rfl
  · next hother =>
    refine .inr ⟨rfl, fun hsame => hother ?_⟩
    rw [hsame]
    unfold ObjectMeta.owners at hsame ⊢
    cases howners : fetched.metadata.ownerReferences with
    | none =>
        rw [howners] at hsame
        have hmem := owner.mem_place_self ((none : Option (List OwnerReference)).getD [])
        rw [hsame] at hmem
        cases hmem
    | some owners => rfl

/-- A reference that does not name a scaler in the namespace of the patched Deployment is one to
another object. -/
theorem sameObject_eq_false_of_key_ne {scaler : Scaler} {owner present : OwnerReference}
    {fetched : Deployment} (howner : scaler.ownerReference? = some owner)
    (hother : scaler.metadata.key ≠ ⟨(targetKey scaler fetched).ns, present.name⟩) :
    present.sameObject owner = false := by
  obtain ⟨name, uid, hname, -, rfl⟩ := (scaler.ownerReference?_eq_some_iff owner).1 howner
  rw [← Bool.not_eq_true]
  intro hsame
  simp only [OwnerReference.sameObject, Bool.and_eq_true, decide_eq_true_eq] at hsame
  refine hother ?_
  rw [hsame.2, ObjectMeta.key, hname]
  rfl

/-- A patch that succeeds keeps the reference of another controller, or its reconcile overlooks it. -/
theorem Patched.kept_or_overlooks {session : Session} {key : Key}
    {fetched met result stored : Deployment} {present : OwnerReference}
    (h : Patched configs keys events i now session key fetched met result)
    (hattempt : (after configs keys events).attempts i = .underWay session)
    (hhook : (after configs keys events).server.beforePatch = none)
    (hstored : get? (after configs keys events).server.deployments key = some stored)
    (hpresent : present ∈ stored.metadata.owners) (hcontroller : present.isController = true)
    (hother : keys i ≠ ⟨key.ns, present.name⟩) :
    present ∈ result.metadata.owners ∨
      ∃ owner, Overlooks configs keys events i key present owner fetched := by
  obtain ⟨owner, owners, version, howner, howners, hresult⟩ := h.made
  obtain rfl : met = stored := by
    have hmet := h.met_eq
    unfold Server.met? at hmet
    rw [hstored, Option.map_some, Server.runBeforePatch_of_none key hhook] at hmet
    exact (Option.some.inj hmet).symm
  have hafter : result.metadata.owners =
      (overlaid session.scaler owner fetched met).metadata.owners := by
    rw [hresult]
    rfl
  rcases owners_overlaid session.scaler owner fetched met with hsame | ⟨-, hadds⟩
  · left
    rw [hafter, hsame]
    exact hpresent
  · right
    obtain ⟨-, -, hunrivalled, -⟩ := (owner.addTo_eq_ok_iff _ _).1 howners
    have hnone := hunrivalled (isController_of_ownerReference? howner)
    have hforeign : present.sameObject owner = false := by
      rw [← key_of_underWay hattempt, h.key_eq] at hother
      exact sameObject_eq_false_of_key_ne howner hother
    have hrival : owner.IsRival present := ⟨hcontroller, hforeign⟩
    obtain ⟨request, earlier, moment, later, hanswered⟩ := exists_answered hattempt h.told
    obtain ⟨asked, rfl, hasked⟩ := hanswered.getDeployment
    obtain rfl : asked = key :=
      (hanswered.eq_targetKey hattempt hhook hasked).trans h.key_eq.symm
    refine ⟨owner, ?_, ⟨earlier, moment, later, hanswered, hasked⟩, ?_, hnone, hadds⟩
    · rw [hattempt]
      exact howner
    · intro hmem
      exact hnone present hmem hrival

/-- The next turn of a reconcile keeps a reference to another controller than its own scaler, unless
the reconcile overlooks it. -/
theorem controllers_kept (hlock : (configs i).optimisticLock = false)
    (hhook : (after configs keys events).server.beforePatch = none) {key : Key}
    {stored : Deployment} {present : OwnerReference}
    (hstored : get? (after configs keys events).server.deployments key = some stored)
    (hpresent : present ∈ stored.metadata.owners) (hcontroller : present.isController = true)
    (hother : keys i ≠ ⟨key.ns, present.name⟩) :
    ∃ next, get? (after configs keys (events ++ [.turn i now])).server.deployments key = some next ∧
      (present ∈ next.metadata.owners ∨
        ∃ owner fetched, Overlooks configs keys events i key present owner fetched) := by
  rcases deployments_turn configs keys events i now with
    hkept | ⟨session, target, patch, hattempt, hrequest⟩
  · exact ⟨stored, by rw [hkept]; exact hstored, .inl hpresent⟩
  · cases hanswer : (Server.patchDeployment target patch (after configs keys events).server).1 with
    | error error =>
        have hrefused := Server.deployment_of_refused hanswer hstored
        rw [Server.runBeforePatch_of_none key hhook, or_self] at hrefused
        refine ⟨stored, ?_, .inl hpresent⟩
        rw [server_of_sent configs keys hattempt hrequest]
        exact hrefused
    | ok result =>
        obtain ⟨fetched, met, hpatched⟩ := patched_of_answer hlock hattempt hrequest
          (congrArg Response.patched hanswer)
        by_cases htarget : key = target
        · subst htarget
          refine ⟨result, hpatched.stored_eq, ?_⟩
          rcases hpatched.kept_or_overlooks hattempt hhook hstored hpresent hcontroller hother with
            hkept | ⟨owner, hoverlooks⟩
          · exact .inl hkept
          · exact .inr ⟨owner, fetched, hoverlooks⟩
        · exact ⟨stored, (hpatched.others key htarget).trans hstored, .inl hpresent⟩

/-- Two scalers for one workload are created, and its Deployment.  Then reconciles of the two make
turns; `true` stands for a turn of the second one. -/
def sampleRivals (turns : List Bool) : List (Event Bool) :=
  let scaler (name : String) : Scaler :=
    { metadata := { name := some name, ns := some "shop" }
      spec := ⟨3, { apiVersion := none, kind := none, name := "web", uid := some "workload" }⟩
      status := none }
  let workload : Workload :=
    { metadata := { name := some "web", ns := some "shop", uid := some "workload" }
      spec := ⟨none, []⟩
      status := some ⟨[], [⟨none, some "Deployment", "front", none⟩]⟩ }
  let deployment : Deployment :=
    { metadata := { name := some "front", ns := some "shop" }
      spec := some { replicas := some 1 } }
  [.createScaler (scaler "a"), .createScaler (scaler "b"), .createWorkload workload,
    .createDeployment deployment].map .deed ++ turns.map (.turn · default)

/-- The second reconcile has fetched the Deployment after the first one has patched it. -/
theorem controllers_kept_sampleRivals :
    let configs : Bool → Config := fun _ => {}
    let keys : Bool → Key := fun second => ⟨"shop", if second then "b" else "a"⟩
    let events := sampleRivals [false, false, false, false, true, true, true]
    ∃ stored, get? (after configs keys events).server.deployments sampleTarget = some stored ∧
      ∃ present ∈ stored.metadata.owners, present.isController = true ∧
      keys true ≠ ⟨sampleTarget.ns, present.name⟩ ∧
      ∃ next,
        get? (after configs keys (events ++ [.turn true default])).server.deployments sampleTarget =
          some next ∧
        (present ∈ next.metadata.owners ∨
          ∃ owner fetched, Overlooks configs keys events true sampleTarget present owner fetched) := by
  intro configs keys events
  have hcontrolled :
      ∃ stored, get? (after configs keys events).server.deployments sampleTarget = some stored ∧
        ∃ present ∈ stored.metadata.owners, present.isController = true ∧
        keys true ≠ ⟨sampleTarget.ns, present.name⟩ := by
    decide +kernel
  have hhook : (after configs keys events).server.beforePatch.isNone = true := by decide +kernel
  obtain ⟨stored, hstored, present, hpresent, hcontroller, hother⟩ := hcontrolled
  exact ⟨stored, hstored, present, hpresent, hcontroller, hother,
    controllers_kept rfl (Option.isNone_iff_eq_none.1 hhook) hstored hpresent hcontroller hother⟩

/-- Both reconciles fetch the Deployment while nobody controls it, the first one adds its reference,
and the second one puts its own in the place of it. -/
theorem controller_overwritten :
    let configs : Bool → Config := fun _ => {}
    let keys : Bool → Key := fun second => ⟨"shop", if second then "b" else "a"⟩
    let events := sampleRivals [false, true, false, true, false, true, false]
    (∀ i, (configs i).optimisticLock = false) ∧
      ∃ stored, get? (after configs keys events).server.deployments sampleTarget = some stored ∧
        ∃ present ∈ stored.metadata.owners, present.isController = true ∧
        keys true ≠ ⟨sampleTarget.ns, present.name⟩ ∧
        ∃ next,
          get? (after configs keys (events ++ [.turn true default])).server.deployments
            sampleTarget = some next ∧ present ∉ next.metadata.owners := by
  decide +kernel

end ReplicaKeeper.Reconcile.System
