import ReplicaKeeper.Proofs.Reconcile.Interleaving
import ReplicaKeeper.Proofs.Reconcile.Sent
import ReplicaKeeper.Proofs.Server.Patching

/-!
# Patches without the lock under races

Between the turn in which a reconcile fetches a Deployment and the turn in which it patches it,
another writer may change the Deployment.  Without the lock the patch is applied to what it meets,
`patched_of_answer`.  A reported success says which replicas the Deployment has been left with,
`success_achieved`; they are not always those of the scaler, `success_over_other_replicas`.  What
another writer has changed survives if it has left the owners and the replicas alone,
`unrelated_changes_survive`, unless the Deployment is not stored under its own key,
`displaced_patch_refused`.
-/

set_option autoImplicit false

namespace ReplicaKeeper

open Entries

namespace Reconcile

open MergePatch

namespace System

variable {ι : Type} [DecidableEq ι] {configs : ι → Config} {keys : ι → Key}
  {events : List (Event ι)} {i : ι} {now : Time}

/-! ## Patches that succeed -/

/-- A patch of a reconcile that has succeeded: it was computed for the fetched Deployment, and
applied to the one that it met. -/
structure Patched (configs : ι → Config) (keys : ι → Key) (events : List (Event ι)) (i : ι)
    (now : Time) (session : Session) (key : Key) (fetched met stored : Deployment) : Prop where
  told : session.response = some (.deployment (.ok fetched))
  key_eq : key = targetKey session.scaler fetched
  met_eq : (after configs keys events).server.met? key = some met
  stored_eq :
    get? (after configs keys (events ++ [.turn i now])).server.deployments key = some stored
  others : ∀ other, other ≠ key →
    get? (after configs keys (events ++ [.turn i now])).server.deployments other =
      get? (after configs keys events).server.deployments other
  made : ∃ owner owners version, session.scaler.ownerReference? = some owner ∧
    owner.addTo fetched.metadata.owners = .ok owners ∧
    stored = (overlaid session.scaler owner fetched met).wholeSeconds.withVersion version

theorem patched_of_answer (hlock : (configs i).optimisticLock = false) {session : Session}
    {key : Key} {patch : Json} {stored : Deployment}
    (hattempt : (after configs keys events).attempts i = .underWay session)
    (hrequest : (session.nextStep now (configs i)).2 = some (.patchDeployment key patch))
    (hanswer : (Server.store.send (.patchDeployment key patch) (after configs keys events).server).1 =
      .patched (.ok stored)) :
    ∃ fetched met, Patched configs keys events i now session key fetched met stored := by
  have hmove := @session.nextStep_move now (configs i)
  rw [hrequest] at hmove
  obtain ⟨-, -, fetched, owner, wanted, hresponse, howner, hdesired, rfl, rfl⟩ :=
    hmove.of_patchDeployment
  obtain ⟨met, merged, version, hmet, hmerged, rfl, hstored, hothers⟩ :=
    Server.exists_met (Response.patched.inj hanswer)
  obtain ⟨-, -, rfl⟩ := (patched_patchTo_overlaid_iff hlock hdesired _ _ _).1 hmerged
  obtain ⟨owners, howners, -⟩ := exists_owners_of_desired hdesired
  have hserver := server_of_sent configs keys hattempt hrequest
  refine ⟨fetched, met, hresponse, rfl, hmet, ?_, fun other hother => ?_, owner, owners, version,
    howner, howners, rfl⟩
  · rw [hserver]
    exact hstored
  · rw [hserver]
    exact hothers other hother

/-! ## Successes -/

theorem lookup_replicas_of_told {config : Config} {session : Session} {key : Key} {patch : Json}
    {fetched : Deployment}
    (hrequest : (session.nextStep now config).2 = some (.patchDeployment key patch))
    (htold : session.response = some (.deployment (.ok fetched))) :
    patch.lookup ["spec", "replicas"] =
      if fetched.replicas? = some session.scaler.spec.replicaCount then none
      else some (.ofInt32 session.scaler.spec.replicaCount) := by
  have hmove := @session.nextStep_move now config
  rw [hrequest] at hmove
  obtain ⟨-, -, deployment, owner, wanted, hresponse, -, hdesired, rfl, -⟩ :=
    hmove.of_patchDeployment
  obtain rfl : deployment = fetched := by simpa using hresponse.symm.trans htold
  exact lookup_replicas_patchTo config hdesired

/-- What a reconcile has done when it reports a success. -/
structure Achieved (configs : ι → Config) (keys : ι → Key) (events : List (Event ι)) (i : ι)
    (scaler : Scaler) (fetched met stored : Deployment) : Prop where
  /-- The reconcile has read its scaler before. -/
  began : ∃ earlier moment later, Began configs keys events i scaler earlier moment later
  /-- In its last turn it made the patch that the Deployment met, and in the turn before that it
  fetched the Deployment.  The patch does not mention the replicas if the fetched Deployment had
  those of the scaler already, and sets them otherwise. -/
  patched : ∃ key patch earlier moment later,
    Answered configs keys events i (.patchDeployment key patch) (.patched (.ok stored)) earlier
      moment later ∧
    (patch.lookup ["spec", "replicas"] =
      if fetched.replicas? = some scaler.spec.replicaCount then none
      else some (.ofInt32 scaler.spec.replicaCount)) ∧
    (after configs keys earlier).server.met? key = some met ∧
    get? (after configs keys (earlier ++ [.turn i moment])).server.deployments key = some stored ∧
    ∃ asked start first between,
      Answered configs keys earlier i (.getDeployment asked) (.deployment (.ok fetched)) start first
        between
  /-- The Deployment has the replicas of the scaler, unless it had them already when it was fetched;
  then it has those that another writer may have left. -/
  replicas : stored.replicas? =
    if fetched.replicas? = some scaler.spec.replicaCount then met.replicas?
    else some scaler.spec.replicaCount

theorem success_achieved (hlock : (configs i).optimisticLock = false) {session : Session}
    {written : Scaler} {found : Condition}
    (hattempt : (after configs keys events).attempts i = .underWay session)
    (hrequest : (session.nextStep now (configs i)).2 = some (.updateStatus written))
    (hfound : written.synced? = some found) (hsuccess : found.status = .success) :
    ∃ fetched met stored, Achieved configs keys events i session.scaler fetched met stored := by
  have hmove := @session.nextStep_move now (configs i)
  rw [hrequest] at hmove
  obtain ⟨finding, rfl, -, -, -, hscaled⟩ := hmove.of_updateStatus
  obtain ⟨reported, hreported, hstatus, -, -⟩ :=
    Finding.synced?_reporting (configs i) now session.scaler finding
  obtain rfl := Option.some.inj (hfound.symm.trans hreported)
  obtain ⟨hstage, answered, hresponse⟩ :=
    hscaled.1 ((Finding.status_eq_success_iff finding).1 (hstatus.symm.trans hsuccess))
  obtain ⟨request, earlier, moment, later, hanswered⟩ := exists_answered hattempt hresponse
  obtain ⟨key, patch, rfl⟩ := hanswered.patchDeployment
  obtain ⟨before, hbefore, hasked, hscaler⟩ := hanswered.exists_session hattempt
  obtain ⟨fetched, met, hpatched⟩ := patched_of_answer hlock hbefore hasked hanswered.answer
  have hmentions := lookup_replicas_of_told hasked hpatched.told
  rw [hscaler] at hmentions
  obtain ⟨fetching, start, first, between, hfetched⟩ := exists_answered hbefore hpatched.told
  obtain ⟨asked, rfl, -⟩ := hfetched.getDeployment
  obtain ⟨owner, owners, version, -, -, hstored⟩ := hpatched.made
  refine ⟨fetched, met, answered, exists_began hattempt, ⟨key, patch, earlier, moment, later,
    hanswered, hmentions, hpatched.met_eq, hpatched.stored_eq, asked, start, first, between, hfetched⟩, ?_⟩
  rw [hstored, Deployment.replicas?_withVersion, Deployment.replicas?_wholeSeconds,
    replicas?_overlaid, hscaler]

def sampleTarget : Key := ⟨"shop", "front"⟩

/-- The sample server has a Deployment with the given replicas, something happens before a reconcile
of the scaler, the reconcile fetches the Deployment, and more happens after that. -/
def sampleFetch (replicas : Int32) (before after : List Deed) : List (Event Unit) :=
  let created : Deployment :=
    { metadata := { name := some "front", ns := some "shop" }
      spec := some { replicas := some replicas } }
  (Server.sampleDeeds ++ [Deed.createDeployment created] ++ before).map .deed ++
    List.replicate 3 (.turn () default) ++ after.map .deed

/-- Another writer changes the replicas between the fetch and the patch, and the patch changes them
again. -/
theorem success_achieved_sampleFetch :
    let configs : Unit → Config := fun _ => {}
    let keys : Unit → Key := fun _ => Server.sampleKey
    let events := sampleFetch 1 [] [.onBeforePatch (·.withReplicas 7)] ++ [.turn () default]
    ∃ session, (after configs keys events).attempts () = .underWay session ∧
      ∃ written, (session.nextStep default (configs ())).2 = some (.updateStatus written) ∧
      ∃ found, written.synced? = some found ∧ found.status = .success ∧
      ∃ fetched met stored, Achieved configs keys events () session.scaler fetched met stored := by
  intro configs keys events
  have hreport : ∃ session, (after configs keys events).attempts () = .underWay session ∧
      ∃ written, (session.nextStep default (configs ())).2 = some (.updateStatus written) ∧
      ∃ found, written.synced? = some found ∧ found.status = .success := by
    decide +kernel
  obtain ⟨session, hattempt, written, hrequest, found, hfound, hsuccess⟩ := hreport
  exact ⟨session, hattempt, written, hrequest, found, hfound, hsuccess,
    success_achieved rfl hattempt hrequest hfound hsuccess⟩

/-- The fetched Deployment has the replicas of the scaler already, so the patch does not mention
them.  Another writer changes nothing but them, and the reconcile reports a success all the same. -/
theorem success_over_other_replicas :
    let configs : Unit → Config := fun _ => {}
    let keys : Unit → Key := fun _ => Server.sampleKey
    let hook : Deployment → Deployment := (·.withReplicas 7)
    let events := sampleFetch 3 [] [.onBeforePatch hook] ++ [.turn () default]
    (configs ()).optimisticLock = false ∧
      (∀ deployment, (hook deployment).metadata = deployment.metadata) ∧
      ∃ session, (after configs keys events).attempts () = .underWay session ∧
        session.scaler.spec.replicaCount = 3 ∧
        (∃ written, (session.nextStep default (configs ())).2 = some (.updateStatus written) ∧
          ∃ found, written.synced? = some found ∧ found.status = .success) ∧
        ∃ stored, get? (after configs keys events).server.deployments sampleTarget = some stored ∧
          stored.replicas? = some 7 :=
  ⟨rfl, fun _ => rfl, by decide +kernel⟩

/-! ## Unrelated changes -/

/-- A patch succeeds, and the Deployment that it met becomes owned and scaled, while everything else
about it survives. -/
structure Survives (configs : ι → Config) (keys : ι → Key) (events : List (Event ι)) (i : ι)
    (now : Time) (scaler : Scaler) (key : Key) (patch : Json) (fetched met : Deployment)
    (owner : OwnerReference) (owned result : Deployment) : Prop where
  owner_eq : scaler.ownerReference? = some owner
  owned_eq : fetched.withOwner owner = .ok owned
  answer : (Server.store.send (.patchDeployment key patch) (after configs keys events).server).1 =
    .patched (.ok result)
  stored :
    get? (after configs keys (events ++ [.turn i now])).server.deployments key = some result
  /-- The owners are those of the fetched Deployment with one more, the replicas are those that the
  scaler asks for, and the rest is what the patch met. -/
  survives : result.SameButVersion
    (({ met with
        metadata := { met.metadata with ownerReferences := owned.metadata.ownerReferences } } :
        Deployment).withReplicas scaler.spec.replicaCount)

/-- What another writer has changed survives a patch, if it left owners and replicas as they were
fetched, and the Deployment under its own key. -/
theorem unrelated_changes_survive (hlock : (configs i).optimisticLock = false) {session : Session}
    {fetched met : Deployment} {key : Key} {patch : Json}
    (hattempt : (after configs keys events).attempts i = .underWay session)
    (hresponse : session.response = some (.deployment (.ok fetched)))
    (hrequest : (session.nextStep now (configs i)).2 = some (.patchDeployment key patch))
    (hfaults : (after configs keys events).server.faults = [])
    (hmet : (after configs keys events).server.met? key = some met)
    (hkey : met.metadata.key = key)
    (howners : met.metadata.ownerReferences = fetched.metadata.ownerReferences)
    (hreplicas : met.replicas? = fetched.replicas?) (hcalendar : met.InCalendar) :
    ∃ owner owned result,
      Survives configs keys events i now session.scaler key patch fetched met owner owned result := by
  have hmove := @session.nextStep_move now (configs i)
  rw [hrequest] at hmove
  obtain ⟨-, -, told, owner, wanted, htold, howner, hdesired, rfl, rfl⟩ := hmove.of_patchDeployment
  obtain rfl : told = fetched := by
    rw [hresponse] at htold
    cases htold
    rfl
  have hmerged := (patched_patchTo_overlaid_iff hlock hdesired _ _ _).2 ⟨hcalendar, hkey, rfl⟩
  obtain ⟨version, hanswer, hstored⟩ := Server.patchDeployment_of_met hfaults hmet hmerged
  obtain ⟨owned, howned, -⟩ := desired_eq_ok_iff.1 hdesired
  obtain ⟨owners, hplaced, hwithOwner⟩ := (told.withOwner_eq_ok_iff owner owned).1 howned
  obtain ⟨-, -, -, rfl⟩ := (OwnerReference.addTo_eq_ok_iff _ _ _).1 hplaced
  refine ⟨owner, owned, _, howner, howned, congrArg Response.patched hanswer, ?_, ?_⟩
  · rw [server_of_sent configs keys hattempt hrequest]
    exact hstored
  · rw [overlaid_of_unrelated session.scaler owner howners hreplicas, hwithOwner]
    exact Deployment.sameButVersion_wholeSeconds version _

/-- Another client adds a label between the fetch and the patch. -/
theorem unrelated_changes_survive_sampleFetch :
    let configs : Unit → Config := fun _ => {}
    let keys : Unit → Key := fun _ => Server.sampleKey
    let label : Json := .obj [("metadata", .obj [("labels", .obj [("team", .str "payments")])])]
    let events := sampleFetch 1 [] [.send (.patchDeployment sampleTarget label)]
    ∃ session, (after configs keys events).attempts () = .underWay session ∧
      ∃ fetched, session.response = some (.deployment (.ok fetched)) ∧
      ∃ patch, (session.nextStep default (configs ())).2 = some (.patchDeployment sampleTarget patch) ∧
      ∃ met, (after configs keys events).server.met? sampleTarget = some met ∧
      met.metadata.labels ≠ fetched.metadata.labels ∧
      ∃ owner owned result, Survives configs keys events () default session.scaler sampleTarget patch
        fetched met owner owned result := by
  intro configs keys label events
  have hpatch : ∃ session, (after configs keys events).attempts () = .underWay session ∧
      ∃ fetched, session.response = some (.deployment (.ok fetched)) ∧
      ∃ patch, (session.nextStep default (configs ())).2 = some (.patchDeployment sampleTarget patch) ∧
      ∃ met, (after configs keys events).server.met? sampleTarget = some met ∧
      met.metadata.labels ≠ fetched.metadata.labels ∧ met.metadata.key = sampleTarget ∧
      met.metadata.ownerReferences = fetched.metadata.ownerReferences ∧
      met.replicas? = fetched.replicas? ∧ met.InCalendar := by
    decide +kernel
  obtain ⟨session, hattempt, fetched, hresponse, patch, hrequest, met, hmet, hlabels, hkey, howners,
    hreplicas, hcalendar⟩ := hpatch
  exact ⟨session, hattempt, fetched, hresponse, patch, hrequest, met, hmet, hlabels,
    unrelated_changes_survive rfl hattempt hresponse hrequest (by decide +kernel) hmet hkey howners
      hreplicas hcalendar⟩

/-- Another writer has given the Deployment another namespace, and it is still stored under its old
key.  A patch that meets it is refused, even if nothing has happened since the fetch. -/
theorem displaced_patch_refused :
    let configs : Unit → Config := fun _ => {}
    let keys : Unit → Key := fun _ => Server.sampleKey
    let displace : Deployment → Deployment := fun deployment =>
      { deployment with metadata := { deployment.metadata with ns := some "other" } }
    let events :=
      sampleFetch 1 [.onBeforePatch displace, .send (.patchDeployment sampleTarget (.obj []))] []
    (configs ()).optimisticLock = false ∧ (after configs keys events).server.faults = [] ∧
      ∃ session, (after configs keys events).attempts () = .underWay session ∧
        ∃ fetched, session.response = some (.deployment (.ok fetched)) ∧
        ∃ patch,
          (session.nextStep default (configs ())).2 = some (.patchDeployment sampleTarget patch) ∧
        ∃ met, (after configs keys events).server.met? sampleTarget = some met ∧
        met = fetched.withVersion met.metadata.resourceVersion ∧ fetched.spec ≠ none ∧
        (Server.store.send (.patchDeployment sampleTarget patch)
          (after configs keys events).server).1 = .patched (.error .badRequest) := by
  decide +kernel

end System

end Reconcile

end ReplicaKeeper
