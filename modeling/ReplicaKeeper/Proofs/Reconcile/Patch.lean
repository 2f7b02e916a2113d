import ReplicaKeeper.Proofs.MergePatch.NullCover
import ReplicaKeeper.Proofs.Ownership
import ReplicaKeeper.Proofs.Server.Patching
import ReplicaKeeper.Reconcile.Step

/-!
# What the patch of a reconcile does

The patch that a reconcile computes turns the Deployment that it read into the wanted one,
`apply_patchTo`, with the lock or without it, as long as the two have the same resource version.
The lock is all that the patch says about the version, `version?_patchTo`.  So a server that still
has the Deployment that was read makes the wanted one of it, `patched_patchTo_eq_ok_iff`.
-/

set_option autoImplicit false

namespace ReplicaKeeper

open Entries

namespace Reconcile

open MergePatch

/-! ## The lock -/

section Lock

variable {changes members metadata change : Members} {version : String}

theorem lockVersion_obj (hchange : (get? changes "metadata").getD .emptyObject = .obj change) :
    lockVersion version (.obj changes) =
      .obj (insert "metadata" (.obj (insert "resourceVersion" (.str version) change)) changes) := by
  simp only [lockVersion, hchange]

/-- The lock changes nothing about what becomes of an object that has the version in the end. -/
theorem apply_lockVersion (hchanges : Ordered changes) (hmembers : Ordered members)
    (hordered : Ordered change) (hmetadata : Ordered metadata)
    (hchange : (get? changes "metadata").getD .emptyObject = .obj change)
    (hbase : get? members "metadata" = some (.obj metadata))
    (hversion : get? (applyMembers change metadata) "resourceVersion" = some (.str version)) :
    apply (lockVersion version (.obj changes)) (.obj members) =
      apply (.obj changes) (.obj members) := by
  have hinner : applyMembers (insert "resourceVersion" (.str version) change) metadata =
      applyMembers change metadata := by
    refine members_ext (ordered_applyMembers _ hmetadata) (ordered_applyMembers _ hmetadata) ?_
    intro name
    rw [get?_applyMembers (nodup_keys_of_ordered (ordered_insert hordered _ _)), get?_insert]
    by_cases hname : "resourceVersion" = name
    · subst hname
      rw [if_pos rfl, hversion]
      exact congrArg some (apply_of_not_isObject rfl _)
    · rw [if_neg hname, get?_applyMembers (nodup_keys_of_ordered hordered)]
  rw [lockVersion_obj hchange, apply, apply]
  refine congrArg Json.obj ?_
  refine members_ext (ordered_applyMembers _ hmembers) (ordered_applyMembers _ hmembers) ?_
  intro name
  rw [Json.membersOrEmpty_obj,
    get?_applyMembers (nodup_keys_of_ordered (ordered_insert hchanges _ _)),
    get?_applyMembers (nodup_keys_of_ordered hchanges), get?_insert]
  by_cases hname : "metadata" = name
  · subst hname
    rw [if_pos rfl, hbase]
    change some (apply (.obj (insert "resourceVersion" (.str version) change)) (.obj metadata)) = _
    rw [apply, Json.membersOrEmpty_obj, hinner]
    cases hpresent : get? changes "metadata" with
    | none =>
        rw [hpresent] at hchange
        cases hchange
        rfl
    | some value =>
        rw [hpresent] at hchange
        obtain rfl : value = .obj change := hchange
        rfl
  · rw [if_neg hname]

end Lock

end Reconcile

/-! ## Patches between Deployments -/

theorem ObjectMeta.ordered_encode (metadata : ObjectMeta) :
    Ordered metadata.encode.membersOrEmpty :=
  metadata.plain_encode.1

theorem Deployment.ordered_encode (deployment : Deployment) :
    Ordered deployment.encode.membersOrEmpty :=
  deployment.plain_encode.1

theorem ObjectMeta.get?_resourceVersion (metadata : ObjectMeta) :
    get? metadata.encode.membersOrEmpty "resourceVersion" = metadata.resourceVersion.map .str := by
  change metadata.encode.member? "resourceVersion" = _
  simp [encode, Json.member?_record_cons]

theorem Deployment.get?_metadata (deployment : Deployment) :
    get? deployment.encode.membersOrEmpty "metadata" = some deployment.metadata.encode := by
  change deployment.encode.member? "metadata" = _
  simp [encode]

theorem Deployment.get?_spec (deployment : Deployment) :
    get? deployment.encode.membersOrEmpty "spec" = deployment.spec.map DeploymentSpec.encode := by
  change deployment.encode.member? "spec" = _
  simp [encode, Json.member?_record_cons]

namespace Reconcile

open MergePatch

variable {deployment wanted : Deployment}

/-- The changes of the patch from a Deployment to the wanted one. -/
def changesTo (deployment wanted : Deployment) : Members :=
  diffMembers deployment.encode.membersOrEmpty wanted.encode.membersOrEmpty

theorem ordered_changesTo : Ordered (changesTo deployment wanted) :=
  ordered_diffMembers deployment.ordered_encode _

theorem get?_metadata_changesTo : get? (changesTo deployment wanted) "metadata" =
    change? wanted.metadata.encode (some deployment.metadata.encode) := by
  unfold changesTo
  rw [get?_diffMembers wanted.ordered_encode, wanted.get?_metadata, deployment.get?_metadata]

theorem get?_spec_changesTo {spec : DeploymentSpec} (hspec : wanted.spec = some spec) :
    get? (changesTo deployment wanted) "spec" =
      change? spec.encode (deployment.spec.map DeploymentSpec.encode) := by
  unfold changesTo
  rw [get?_diffMembers wanted.ordered_encode, wanted.get?_spec, deployment.get?_spec, hspec]
  rfl

/-- The changes of the metadata are an object that leads to the wanted metadata.  They leave out the
resource version when both Deployments have the same one. -/
theorem exists_metadata_changesTo
    (hversion : wanted.metadata.resourceVersion = deployment.metadata.resourceVersion) :
    ∃ change, (get? (changesTo deployment wanted) "metadata").getD .emptyObject = .obj change ∧
      Ordered change ∧ get? change "resourceVersion" = none ∧
      applyMembers change deployment.metadata.encode.membersOrEmpty =
        wanted.metadata.encode.membersOrEmpty := by
  have hordered := deployment.metadata.ordered_encode
  have hchange := change?_obj hordered wanted.metadata.ordered_encode
  refine ⟨_, ?_, ordered_diffMembers hordered wanted.metadata.encode.membersOrEmpty, ?_, ?_⟩
  · rw [get?_metadata_changesTo]
    refine (congrArg (·.getD Json.emptyObject) hchange).trans ?_
    split
    · next hempty =>
      rw [hempty]
      rfl
    · rfl
  · refine get?_diffMembers_of_eq wanted.metadata.ordered_encode ?_
    rw [wanted.metadata.get?_resourceVersion, hversion, deployment.metadata.get?_resourceVersion]
  · exact applyMembers_diffMembers deployment.metadata.plain_encode.wellFormed
      wanted.metadata.plain_encode

theorem apply_changesTo : apply (.obj (changesTo deployment wanted)) deployment.encode =
    wanted.encode :=
  apply_diff deployment.plain_encode.wellFormed wanted.plain_encode

/-- The patch of a reconcile leads to the wanted Deployment, whether it locks or not. -/
theorem apply_patchTo (config : Config)
    (hversion : wanted.metadata.resourceVersion = deployment.metadata.resourceVersion) :
    apply (patchTo config deployment wanted) deployment.encode = wanted.encode := by
  unfold patchTo
  dsimp only
  split
  · next version hlock hpresent =>
    obtain ⟨change, hchange, hordered, -, happly⟩ := exists_metadata_changesTo hversion
    have hafter : get? (applyMembers change deployment.metadata.encode.membersOrEmpty)
        "resourceVersion" = some (.str version) := by
      rw [happly, wanted.metadata.get?_resourceVersion, hversion, hpresent]
      rfl
    refine (apply_lockVersion ordered_changesTo deployment.ordered_encode hordered
      deployment.metadata.ordered_encode hchange deployment.get?_metadata hafter).trans ?_
    exact apply_changesTo
  · exact apply_changesTo

/-- A patch asks for the version that was read if it locks, and for none otherwise. -/
theorem version?_patchTo (config : Config)
    (hversion : wanted.metadata.resourceVersion = deployment.metadata.resourceVersion) :
    version? (patchTo config deployment wanted) =
      if config.optimisticLock then deployment.metadata.resourceVersion else none := by
  obtain ⟨change, hchange, hordered, hnone, -⟩ := exists_metadata_changesTo hversion
  have hunlocked : version? (.obj (changesTo deployment wanted)) = none := by
    unfold version?
    rw [Json.lookup, Json.member?_obj]
    cases hpresent : get? (changesTo deployment wanted) "metadata" with
    | none => rfl
    | some value =>
        rw [hpresent] at hchange
        obtain rfl : value = .obj change := hchange
        rw [Option.bind_some, Json.lookup, Json.member?_obj, hnone]
        rfl
  have hlocked (version : String) :
      version? (lockVersion version (.obj (changesTo deployment wanted))) = some version := by
    rw [lockVersion_obj hchange]
    simp [version?, Json.lookup, get?_insert, Json.asString?]
  unfold patchTo
  dsimp only
  split
  · next version hlock hpresent =>
    rw [if_pos hlock, hpresent]
    exact hlocked version
  · next hother =>
    refine Eq.trans hunlocked ?_
    cases hlock : config.optimisticLock with
    | false => rfl
    | true =>
        cases hpresent : deployment.metadata.resourceVersion with
        | none => rfl
        | some version => exact absurd hpresent (hother version hlock)

/-! ## The wanted Deployment -/

section Desired

variable {scaler : Scaler} {owner : OwnerReference}

theorem desired_eq_ok_iff : desired scaler owner deployment = .ok wanted ↔
    ∃ owned, deployment.withOwner owner = .ok owned ∧
      wanted = owned.withReplicas scaler.spec.replicaCount := by
  unfold desired
  cases deployment.withOwner owner with
  | error found => simp [Except.map]
  | ok owned => simp [Except.map, eq_comm]

/-- Only owners and replicas are wanted otherwise. -/
theorem exists_owners_of_desired (h : desired scaler owner deployment = .ok wanted) :
    ∃ owners, owner.addTo deployment.metadata.owners = .ok owners ∧
      wanted =
        { deployment with
          metadata := { deployment.metadata with ownerReferences := some owners }
          spec := some { deployment.spec.getD {} with replicas := some scaler.spec.replicaCount } } := by
  obtain ⟨owned, howned, rfl⟩ := desired_eq_ok_iff.1 h
  obtain ⟨owners, howners, rfl⟩ := (deployment.withOwner_eq_ok_iff owner owned).1 howned
  exact ⟨owners, howners, rfl⟩

theorem resourceVersion_of_desired (h : desired scaler owner deployment = .ok wanted) :
    wanted.metadata.resourceVersion = deployment.metadata.resourceVersion := by
  obtain ⟨owners, -, rfl⟩ := exists_owners_of_desired h
  rfl

/-- What a reconcile has made of a Deployment is what the next one wants. -/
theorem desired_wholeSeconds (h : desired scaler owner deployment = .ok wanted)
    (version : Option String) :
    desired scaler owner (wanted.wholeSeconds.withVersion version) =
      .ok (wanted.wholeSeconds.withVersion version) := by
  obtain ⟨owners, howners, rfl⟩ := exists_owners_of_desired h
  have hagain := OwnerReference.addTo_place howners
  refine desired_eq_ok_iff.2 ⟨_, (Deployment.withOwner_eq_ok_iff _ _ _).2 ⟨owners, hagain, rfl⟩, ?_⟩
  rfl

/-- A patch that merges into a certain Deployment gives it, without the fractions of seconds, when
nothing stands in the way. -/
theorem patched_eq_ok_iff_of_merge {patch : Json} {current target : Deployment}
    (hfresh : Server.isStale patch current = false)
    (hmerge : current.merge patch = target.encode.decodeAs Deployment.decode)
    (hkey : target.metadata.key = current.metadata.key)
    (huid : target.metadata.uid = current.metadata.uid)
    (hversion : target.metadata.resourceVersion = current.metadata.resourceVersion) (key : Key)
    (merged : Deployment) :
    Server.patched key patch current = .ok merged ↔
      target.InCalendar ∧ current.metadata.key = key ∧ merged = target.wholeSeconds := by
  rw [Server.patched_eq_ok_iff, hmerge]
  by_cases hcalendar : target.InCalendar
  · rw [Deployment.readsBack.ok hcalendar, ← hversion]
    constructor
    · rintro ⟨-, read, hread, hgiven, -, rfl⟩
      obtain rfl := Except.ok.inj hread
      exact ⟨hcalendar, hkey.symm.trans hgiven, rfl⟩
    · rintro ⟨-, hgiven, rfl⟩
      exact ⟨hfresh, target.wholeSeconds, rfl, hkey.trans hgiven, huid, rfl⟩
  · rw [Deployment.readsBack.error hcalendar]
    simp [hcalendar]

/-- On the Deployment that was read the patch succeeds if the wanted one can be written and the key
is that of the Deployment.  It gives the wanted Deployment, without the fractions of seconds. -/
theorem patched_patchTo_eq_ok_iff (config : Config)
    (h : desired scaler owner deployment = .ok wanted) (key : Key) (merged : Deployment) :
    Server.patched key (patchTo config deployment wanted) deployment = .ok merged ↔
      wanted.InCalendar ∧ deployment.metadata.key = key ∧ merged = wanted.wholeSeconds := by
  have hversion := resourceVersion_of_desired h
  have hfresh : Server.isStale (patchTo config deployment wanted) deployment = false := by
    unfold Server.isStale
    rw [version?_patchTo config hversion]
    cases config.optimisticLock with
    | false => rfl
    | true => cases deployment.metadata.resourceVersion <;> simp
  have hmerge : deployment.merge (patchTo config deployment wanted) =
      wanted.encode.decodeAs Deployment.decode := by
    unfold Deployment.merge
    rw [apply_patchTo config hversion]
  have hsame : wanted.metadata.key = deployment.metadata.key ∧
      wanted.metadata.uid = deployment.metadata.uid := by
    obtain ⟨owners, -, rfl⟩ := exists_owners_of_desired h
    exact ⟨rfl, rfl⟩
  exact patched_eq_ok_iff_of_merge hfresh hmerge hsame.1 hsame.2 hversion key merged

end Desired

end Reconcile

end ReplicaKeeper
