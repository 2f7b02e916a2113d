import ReplicaKeeper.Proofs.Reconcile.Effect
import ReplicaKeeper.Proofs.Reconcile.Interleaving

/-!
# Patches under the optimistic lock

A reconcile reads a Deployment in one turn and patches it in a later one, and anything may happen in
between.  With the optimistic lock the two are one change all the same, `Atomic`: a patch that
succeeds meets the Deployment that was read, and turns it into the wanted one.  A Deployment that
another object controls is therefore spared.  `locked_patches_atomic` is the main statement, for
every list of events.
-/

set_option autoImplicit false

namespace ReplicaKeeper

open Entries

namespace Server

/-! ## Patches that fail, and patches that succeed -/

section Patches

variable {server : Server} {key : Key} {patch : Json}

/-- A patch that fails leaves a Deployment as it is, or as another writer has made it. -/
theorem deployment_of_refused {error : ApiError}
    (h : (server.patchDeployment key patch).1 = .error error) {other : Key} {stored : Deployment}
    (hstored : get? server.deployments other = some stored) :
    get? (server.patchDeployment key patch).2.deployments other = some stored ∨
      get? (server.patchDeployment key patch).2.deployments other =
        some (server.runBeforePatch other stored).1 := by
  have hsame := sameObjects_receive .patchDeployment key server
  have hanswered := server.patchDeployment_answered key patch
  rw [h] at hanswered
  rw [← hsame.deployments] at hstored
  generalize (server.patchDeployment key patch).2 = last at hanswered ⊢
  cases hanswered with
  | refused => exact .inl hstored
  | rejected hmet hrejected =>
      rw [get?_runBeforePatch hmet]
      split
      · next hkey =>
        subst hkey
        rw [hstored] at hmet
        cases hmet
        exact .inr (congrArg some (runBeforePatch_of_sameObjects hsame key stored))
      · exact .inl hstored

/-- A patch that asks for a version is answered only by the Deployment with that version. -/
theorem resourceVersion_of_patched {current merged : Deployment} {version : String}
    (h : patched key patch current = .ok merged) (hversion : MergePatch.version? patch = some version) :
    current.metadata.resourceVersion = some version := by
  obtain ⟨hfresh, -⟩ := patched_eq_ok_iff.1 h
  unfold isStale at hfresh
  rw [hversion] at hfresh
  exact Decidable.not_not.1 fun hother => Bool.eq_false_iff.1 hfresh (decide_eq_true hother)

/-- A patch that asks for the version of a known Deployment succeeds on this Deployment only. -/
theorem changed_of_locked {fetched result : Deployment} (hknown : server.KnowsDeployment fetched)
    (hversion : MergePatch.version? patch = fetched.metadata.resourceVersion)
    (h : (server.patchDeployment key patch).1 = .ok result) :
    server.beforePatch = none ∧ get? server.deployments key = some fetched ∧
      ∃ merged version, patched key patch fetched = .ok merged ∧
        Changed key (merged.withVersion version) server (server.patchDeployment key patch).2 := by
  obtain ⟨n, hdrawn, hfetched⟩ := hknown.drawn
  have hasked := hversion.trans hfetched
  cases hhook : server.beforePatch with
  | none =>
      rcases patchDeployment_cases hhook key patch with
        ⟨error, herror, -⟩ | ⟨answer, current, merged, version, -, hcurrent, hmerged, hchanged⟩
      · rw [h] at herror
        cases herror
      · have hmet := resourceVersion_of_patched hmerged hasked
        obtain rfl : current = fetched := hknown.unique key current hcurrent (hmet.trans hfetched.symm)
        exact ⟨rfl, hcurrent, merged, version, hmerged, hchanged⟩
  | some hook =>
      have hsame := sameObjects_receive .patchDeployment key server
      have hanswered := server.patchDeployment_answered key patch
      rw [h] at hanswered
      generalize (server.patchDeployment key patch).2 = last at hanswered
      generalize hresult : Except.ok result = answer at hanswered
      cases hanswered with
      | refused | rejected => cases hresult
      | accepted hstored hmerged =>
          have hmet := resourceVersion_of_patched hmerged hasked
          rw [resourceVersion_runBeforePatch (hsame.beforePatch.trans hhook), hsame.versionCounter,
            ← hfetched] at hmet
          exact absurd hmet.symm hknown.drawn.ne_next

/-- A report leaves the Deployments as they are. -/
theorem deployments_updateStatus (sent : Scaler) (server : Server) :
    (server.updateStatus sent).2.deployments = server.deployments := by
  have hanswered := server.updateStatus_answered sent
  generalize (server.updateStatus sent).1 = answer, (server.updateStatus sent).2 = last
    at hanswered ⊢
  cases hanswered with
  | refused | accepted => exact receive_deployments .updateStatus _ server

end Patches

end Server

namespace Reconcile

/-- The reference that a reconcile under way marks Deployments with, if its scaler has one. -/
def Attempt.owner? : Attempt → Option OwnerReference
  | .underWay session => session.scaler.ownerReference?
  | _ => none

namespace System

variable {ι : Type} [DecidableEq ι] (configs : ι → Config) (keys : ι → Key)

/-! ## What the lock is for -/

/-- A reconcile has read its scaler, and in its last turn a Deployment that has been under the key
ever since. -/
structure Fetched (events : List (Event ι)) (i : ι) (scaler : Scaler) (key : Key)
    (fetched : Deployment) : Prop where
  scaler : ∃ earlier moment later, Began configs keys events i scaler earlier moment later
  deployment : ∃ asked earlier moment later,
    Answered configs keys events i (.getDeployment asked) (.deployment (.ok fetched)) earlier moment
      later ∧
    Throughout configs keys earlier events fun server => get? server.deployments key = some fetched

/-- A Deployment becomes the one that a scaler wants, and no other one changes. -/
structure Swapped (scaler : Scaler) (key : Key) (fetched : Deployment) (before after : Server) :
    Prop where
  met : get? before.deployments key = some fetched
  /-- No other writer is faster. -/
  undisturbed : (before.runBeforePatch key fetched).1 = fetched
  made : ∃ owner owned changed, scaler.ownerReference? = some owner ∧
    fetched.withOwner owner = .ok owned ∧ get? after.deployments key = some changed ∧
    changed.SameButVersion (owned.withReplicas scaler.spec.replicaCount)
  others : ∀ other, other ≠ key → get? after.deployments other = get? before.deployments other

/-- What the next turn of a reconcile does to the Deployments. -/
structure Atomic (events : List (Event ι)) (i : ι) (now : Time) : Prop where
  /-- When a patch succeeds, the Deployment that was read is swapped for the wanted one. -/
  swapped : ∀ session key patch result,
    (after configs keys events).attempts i = .underWay session →
    (session.nextStep now (configs i)).2 = some (.patchDeployment key patch) →
    (Server.store.send (.patchDeployment key patch) (after configs keys events).server).1 =
      .patched (.ok result) →
    ∃ fetched, Fetched configs keys events i session.scaler key fetched ∧
      Swapped session.scaler key fetched (after configs keys events).server
        (after configs keys (events ++ [.turn i now])).server
  /-- A Deployment that another object controls stays as it is, or as another writer before the
  patch makes it. -/
  spared : ∀ key stored present,
    get? (after configs keys events).server.deployments key = some stored →
    present ∈ stored.metadata.owners → present.isController = true →
    (∀ owner, ((after configs keys events).attempts i).owner? = some owner →
      present.sameObject owner = false) →
    get? (after configs keys (events ++ [.turn i now])).server.deployments key = some stored ∨
      get? (after configs keys (events ++ [.turn i now])).server.deployments key =
        some ((after configs keys events).server.runBeforePatch key stored).1

variable {configs keys} {events : List (Event ι)} {i : ι} {now : Time}

/-- With the lock a patch that succeeds swaps the Deployment that was read. -/
theorem swapped_of_patched (hlock : (configs i).optimisticLock = true) {session : Session}
    {key : Key} {patch : Json} {result : Deployment}
    (hattempt : (after configs keys events).attempts i = .underWay session)
    (hrequest : (session.nextStep now (configs i)).2 = some (.patchDeployment key patch))
    (hanswer : (Server.store.send (.patchDeployment key patch) (after configs keys events).server).1 =
      .patched (.ok result)) :
    ∃ fetched, Fetched configs keys events i session.scaler key fetched ∧
      Swapped session.scaler key fetched (after configs keys events).server
        (after configs keys (events ++ [.turn i now])).server := by
  have hmove := @session.nextStep_move now (configs i)
  rw [hrequest] at hmove
  obtain ⟨-, -, fetched, owner, wanted, hresponse, howner, hdesired, rfl, rfl⟩ :=
    hmove.of_patchDeployment
  obtain ⟨request, earlier, moment, later, hanswered⟩ := exists_answered hattempt hresponse
  obtain ⟨asked, rfl, hasked⟩ := hanswered.getDeployment
  have hread := (reachable_after configs keys earlier).versioned.deployments _ _ hasked
  have hearlier : earlier <+: events := ⟨_, hanswered.events_eq.symm⟩
  have hknown := (evolves_between configs keys hearlier).deployments.known hread
  have hversion := version?_patchTo (configs i) (resourceVersion_of_desired hdesired)
  rw [if_pos hlock] at hversion
  obtain ⟨hhook, hstored, merged, version, hmerged, hchanged⟩ :=
    Server.changed_of_locked hknown hversion (Response.patched.inj hanswer)
  obtain ⟨-, -, rfl⟩ := (patched_patchTo_eq_ok_iff (configs i) hdesired _ _).1 hmerged
  obtain ⟨owned, howned, rfl⟩ := desired_eq_ok_iff.1 hdesired
  rw [server_of_sent configs keys hattempt hrequest]
  refine ⟨fetched, ⟨exists_began hattempt, asked, earlier, moment, later, hanswered,
    throughout_deployment hread hstored⟩, hstored, ?_, ?_, hchanged.others⟩
  · rw [Server.runBeforePatch_of_none _ hhook]
  · exact ⟨owner, owned, _, howner, howned, hchanged.deployment,
      Deployment.sameButVersion_wholeSeconds version _⟩

/-- What is swapped has no other controller. -/
theorem Swapped.not_isRival {scaler : Scaler} {key : Key} {fetched : Deployment}
    {before after : Server} (h : Swapped scaler key fetched before after) :
    ∃ owner, scaler.ownerReference? = some owner ∧
      ∀ present ∈ fetched.metadata.owners, ¬ owner.IsRival present := by
  obtain ⟨owner, owned, changed, howner, howned, -⟩ := h.made
  obtain ⟨owners, howners, -⟩ := (fetched.withOwner_eq_ok_iff owner owned).1 howned
  obtain ⟨-, -, hrivals, -⟩ := (owner.addTo_eq_ok_iff _ _).1 howners
  exact ⟨owner, howner, hrivals (isController_of_ownerReference? howner)⟩

variable (configs keys) in
/-- Only a patch changes Deployments. -/
theorem deployments_turn (events : List (Event ι)) (i : ι) (now : Time) :
    (after configs keys (events ++ [.turn i now])).server.deployments =
        (after configs keys events).server.deployments ∨
      ∃ session key patch, (after configs keys events).attempts i = .underWay session ∧
        (session.nextStep now (configs i)).2 = some (.patchDeployment key patch) := by
  have hturned := turned_append configs keys events i now
  generalize (after configs keys events).attempts i = attempt,
    (after configs keys (events ++ [.turn i now])).attempts i = next,
    (after configs keys (events ++ [.turn i now])).server = last at hturned ⊢
  cases hturned with
  | @unreadable key | @read key => exact .inl (Server.sameObjects_getScaler key _).deployments
  | quiet | ended => exact .inl rfl
  | @sent session _ request hrequest =>
      cases request with
      | getWorkload key => exact .inl (Server.sameObjects_getWorkload key _).deployments
      | getDeployment key => exact .inl (Server.sameObjects_getDeployment key _).deployments
      | patchDeployment key patch => exact .inr ⟨session, key, patch, rfl, hrequest⟩
      | updateStatus sent => exact .inl (Server.deployments_updateStatus sent _)

/-- Deployments that another object controls are spared. -/
theorem spared_of_turn (hlock : (configs i).optimisticLock = true) {key : Key}
    {stored : Deployment} {present : OwnerReference}
    (hstored : get? (after configs keys events).server.deployments key = some stored)
    (hpresent : present ∈ stored.metadata.owners) (hcontroller : present.isController = true)
    (hforeign : ∀ owner, ((after configs keys events).attempts i).owner? = some owner →
      present.sameObject owner = false) :
    get? (after configs keys (events ++ [.turn i now])).server.deployments key = some stored ∨
      get? (after configs keys (events ++ [.turn i now])).server.deployments key =
        some ((after configs keys events).server.runBeforePatch key stored).1 := by
  rcases deployments_turn configs keys events i now with
    hkept | ⟨session, target, patch, hattempt, hrequest⟩
  · rw [hkept]
    exact .inl hstored
  · cases hanswer : (Server.patchDeployment target patch (after configs keys events).server).1 with
    | error error =>
        rw [server_of_sent configs keys hattempt hrequest]
        exact Server.deployment_of_refused hanswer hstored
    | ok result =>
        obtain ⟨fetched, -, hswapped⟩ := swapped_of_patched hlock hattempt hrequest
          (congrArg Response.patched hanswer)
        refine .inl ?_
        by_cases htarget : key = target
        · subst htarget
          obtain rfl : fetched = stored := Option.some.inj (hswapped.met.symm.trans hstored)
          obtain ⟨owner, howner, hrivals⟩ := hswapped.not_isRival
          rw [hattempt] at hforeign
          exact absurd ⟨hcontroller, hforeign owner howner⟩ (hrivals present hpresent)
        · exact (hswapped.others key htarget).trans hstored

/-- Whatever has happened, the next turn of a reconcile with the optimistic lock is atomic. -/
theorem locked_patches_atomic (configs : ι → Config) (keys : ι → Key) (events : List (Event ι))
    (i : ι) (hlock : (configs i).optimisticLock = true) (now : Time) :
    Atomic configs keys events i now := by
  constructor
  · intro session key patch result hattempt hrequest hanswer
    exact swapped_of_patched hlock hattempt hrequest hanswer
  · intro key stored present hstored hpresent hcontroller hforeign
    exact spared_of_turn hlock hstored hpresent hcontroller hforeign

/-- The objects of the sample server are created, and a reconcile of the scaler makes turns. -/
def sampleEvents (turns : Nat) : List (Event Unit) :=
  Server.sampleDeeds.map .deed ++ List.replicate turns (.turn () default)

theorem locked_patches_atomic_sampleEvents :
    let configs : Unit → Config := fun _ => { optimisticLock := true }
    let keys : Unit → Key := fun _ => Server.sampleKey
    let replicas (turns : Nat) : Option Int32 :=
      (get? (after configs keys (sampleEvents turns)).server.deployments ⟨"shop", "front"⟩).bind
        fun deployment => deployment.spec.bind (·.replicas)
    Atomic configs keys (sampleEvents 3) () default ∧ replicas 3 = none ∧ replicas 4 = some 3 :=
  ⟨locked_patches_atomic _ _ _ () rfl default, by decide +kernel, by decide +kernel⟩

end System

end Reconcile

end ReplicaKeeper
