import ReplicaKeeper.Proofs.MergePatch.Mentions
import ReplicaKeeper.Proofs.Reconcile.Move
import ReplicaKeeper.Proofs.Reconcile.Overlay

/-!
# The patch that is sent

The patch that a reconcile sends leads from the Deployment that was read to the owned one with the
wanted number of replicas, and it removes nothing.  On a Deployment with a specification it says
nothing but what has to be said: `Due` lists the fields with the values that they get, and
`patch_sent` says so for every step that sends a patch.

The patch is followed member by member.  Under `metadata` stands `metadataChange`, under `spec`
stands `specChange`, and no other member is there.
-/

set_option autoImplicit false

namespace ReplicaKeeper.Reconcile

open Entries MergePatch

/-! ## What has to be said -/

/-- The fields that a patch has to set on a Deployment, and to what. -/
inductive Due (config : Config) (scaler : Scaler) (deployment owned : Deployment) :
    List String → Json → Prop
  /-- The number of replicas, if it is another one. -/
  | replicas (hother : deployment.replicas? ≠ some scaler.spec.replicaCount) :
      Due config scaler deployment owned ["spec", "replicas"] (.ofInt32 scaler.spec.replicaCount)
  /-- All owners, if there is a change among them. -/
  | owners {owners : List OwnerReference} (howned : owned.metadata.ownerReferences = some owners)
      (hother : deployment.metadata.ownerReferences ≠ owned.metadata.ownerReferences) :
      Due config scaler deployment owned ["metadata", "ownerReferences"]
        (.arr (owners.map OwnerReference.encode))
  /-- The resource version that was read, under the lock. -/
  | version {version : String} (hlock : config.optimisticLock = true)
      (hversion : deployment.metadata.resourceVersion = some version) :
      Due config scaler deployment owned ["metadata", "resourceVersion"] (.str version)

/-- What a patch for a Deployment does, and what it says. -/
structure Sends (config : Config) (scaler : Scaler) (deployment owned : Deployment)
    (patch : Json) : Prop where
  /-- It leads to the owned Deployment with the wanted number of replicas. -/
  leads : apply patch deployment.encode = (owned.withReplicas scaler.spec.replicaCount).encode
  /-- It holds no null outside arrays. -/
  nullFree : NullFree patch
  /-- Wherever it goes on below an object, of whatever value, all members of the object stay. -/
  keeps : ∀ {target : Json} {path : List String} {changes members : Members} {name : String},
    patch.lookup path = some (.obj changes) → target.lookup path = some (.obj members) →
      (get? members name).isSome → ((apply patch target).lookup (path ++ [name])).isSome
  /-- On a Deployment with a specification it mentions what has to be said, and nothing else. -/
  mentions : deployment.spec.isSome → ∀ path value,
    Mentions patch path value ↔ Due config scaler deployment owned path value

/-! ## Changes of metadata and specification -/

/-- The change of the owners, if they are others. -/
def ownersChange (metadata : ObjectMeta) (owners : List OwnerReference) : Members :=
  if metadata.ownerReferences = some owners then []
  else [("ownerReferences", .arr (owners.map OwnerReference.encode))]

/-- The change of the owners, and under the lock the resource version. -/
def metadataChange (config : Config) (metadata : ObjectMeta) (owners : List OwnerReference) :
    Members :=
  match config.optimisticLock, metadata.resourceVersion with
  | true, some version => insert "resourceVersion" (.str version) (ownersChange metadata owners)
  | _, _ => ownersChange metadata owners

/-- The change of the replicas, if they are others. -/
def specChange (spec : DeploymentSpec) (n : Int32) : Members :=
  if spec.replicas = some n then [] else [("replicas", .ofInt32 n)]

/-- The change of a specification that may be missing: a new one is written as a whole. -/
def specChange? (spec : Option DeploymentSpec) (n : Int32) : Option Json :=
  match spec with
  | none => some (DeploymentSpec.withReplicas n {}).encode
  | some spec => sparse (specChange spec n)

section Changes

variable (config : Config) (metadata : ObjectMeta) (owners : List OwnerReference)
  (spec : DeploymentSpec) (n : Int32)

theorem change?_withOwners : change? (metadata.withOwners owners).encode (some metadata.encode) =
    sparse (ownersChange metadata owners) := by
  unfold ownersChange
  split
  · next hsame =>
    rw [ObjectMeta.withOwners_of_eq hsame]
    exact change?_self metadata.encode
  · next hother =>
    have hwanted := (metadata.withOwners owners).ordered_encode
    have hfield := diffMembers_field OwnerReference.readsBack.list rfl metadata.ordered_encode
      hwanted "ownerReferences" metadata.get?_ownerReferences hother
      (ObjectMeta.get?_ownerReferences _) fun _ hname => metadata.get?_withOwners_of_ne owners hname
    refine (change?_obj metadata.ordered_encode hwanted).trans ?_
    rw [hfield]
    rfl

theorem change?_withReplicas : change? (spec.withReplicas n).encode (some spec.encode) =
    sparse (specChange spec n) := by
  unfold specChange
  split
  · next hsame =>
    rw [DeploymentSpec.withReplicas_of_eq hsame]
    exact change?_self spec.encode
  · next hother =>
    have hwanted := (spec.withReplicas n).ordered_encode
    have hfield := diffMembers_field readsBack_int32 rfl spec.ordered_encode hwanted "replicas"
      spec.get?_replicas hother (DeploymentSpec.get?_replicas _)
      fun _ hname => spec.get?_withReplicas_of_ne n hname
    refine (change?_obj spec.ordered_encode hwanted).trans ?_
    rw [hfield]
    rfl

/-- The owners are the only thing in their change. -/
theorem get?_ownersChange (name : String) (value : Json) :
    get? (ownersChange metadata owners) name = some value ↔
      metadata.ownerReferences ≠ some owners ∧ name = "ownerReferences" ∧
        value = .arr (owners.map OwnerReference.encode) := by
  unfold ownersChange
  split
  · next hsame => simp [hsame]
  · next hother => simp [get?_cons, hother, eq_comm]

/-- The replicas are the only thing in their change. -/
theorem get?_specChange (name : String) (value : Json) :
    get? (specChange spec n) name = some value ↔
      spec.replicas ≠ some n ∧ name = "replicas" ∧ value = .ofInt32 n := by
  unfold specChange
  split
  · next hsame => simp [hsame]
  · next hother => simp [get?_cons, hother, eq_comm]

/-- Owners and resource version are all that the change of the metadata can hold. -/
theorem get?_metadataChange (name : String) (value : Json) :
    get? (metadataChange config metadata owners) name = some value ↔
      get? (ownersChange metadata owners) name = some value ∨
        ∃ version, config.optimisticLock = true ∧ metadata.resourceVersion = some version ∧
          name = "resourceVersion" ∧ value = .str version := by
  unfold metadataChange
  split
  · next version hlock hversion =>
    rw [get?_insert]
    split
    · next hname =>
      subst hname
      have hnone : ¬ get? (ownersChange metadata owners) "resourceVersion" = some value := by
        rw [get?_ownersChange]
        simp
      simp [hnone, hlock, hversion, eq_comm]
    · next hname => simp [Ne.symm hname]
  · next hother =>
    constructor
    · intro hfound
      exact .inl hfound
    · rintro (hfound | ⟨version, hlock, hversion, -, -⟩)
      · exact hfound
      · exact absurd hversion (hother version hlock)

theorem ordered_ownersChange : Ordered (ownersChange metadata owners) := by
  unfold ownersChange
  split
  · exact ordered_nil
  · exact List.pairwise_singleton _ _

theorem ordered_metadataChange : Ordered (metadataChange config metadata owners) := by
  unfold metadataChange
  split
  · exact ordered_insert (ordered_ownersChange metadata owners) _ _
  · exact ordered_ownersChange metadata owners

theorem ordered_specChange : Ordered (specChange spec n) := by
  unfold specChange
  split
  · exact ordered_nil
  · exact List.pairwise_singleton _ _

/-- The change of the metadata holds texts and lists. -/
theorem plain_metadataChange {name : String} {value : Json}
    (h : get? (metadataChange config metadata owners) name = some value) :
    value.Plain ∧ value.isObject = false := by
  rcases (get?_metadataChange config metadata owners name value).1 h with howners | hversion
  · obtain ⟨-, -, rfl⟩ := (get?_ownersChange metadata owners name value).1 howners
    exact ⟨OwnerReference.readsBack.list.plain owners, rfl⟩
  · obtain ⟨version, -, -, -, rfl⟩ := hversion
    exact ⟨trivial, rfl⟩

/-- The change of the specification holds a number. -/
theorem plain_specChange {name : String} {value : Json}
    (h : get? (specChange spec n) name = some value) : value.Plain ∧ value.isObject = false := by
  obtain ⟨-, -, rfl⟩ := (get?_specChange spec n name value).1 h
  exact ⟨plain_ofInt32 n, rfl⟩

theorem plain_specChange? {spec : Option DeploymentSpec} {value : Json}
    (h : specChange? spec n = some value) : value.Plain := by
  cases spec with
  | none =>
      obtain rfl := Option.some.inj h
      exact DeploymentSpec.readsBack.plain _
  | some spec =>
      obtain ⟨-, rfl⟩ := sparse_eq_some_iff.1 h
      exact plain_of_get? (ordered_specChange spec n) fun _ _ hfound =>
        (plain_specChange spec n hfound).1

end Changes

/-! ## The members of the patch -/

/-- What a patch has under each name, for a given change of the metadata. -/
structure PatchMembers (deployment : Deployment) (change : Members) (n : Int32)
    (members : Members) : Prop where
  ordered : Ordered members
  metadata : get? members "metadata" = sparse change
  spec : get? members "spec" = specChange? deployment.spec n
  others : ∀ name, name ≠ "metadata" → name ≠ "spec" → get? members name = none

/-- The Deployment with the given owners and number of replicas. -/
def ownedAndScaled (deployment : Deployment) (owners : List OwnerReference) (n : Int32) :
    Deployment :=
  { deployment with
    metadata := deployment.metadata.withOwners owners
    spec := some ((deployment.spec.getD {}).withReplicas n) }

section Members

variable {deployment : Deployment} {owners : List OwnerReference} {n : Int32}

/-- Without the lock the patch has the changes of owners and replicas. -/
theorem patchMembers_changesTo :
    PatchMembers deployment (ownersChange deployment.metadata owners) n
      (changesTo deployment (ownedAndScaled deployment owners n)) where
  ordered := ordered_changesTo
  metadata := get?_metadata_changesTo.trans (change?_withOwners deployment.metadata owners)
  spec := by
    have hwanted : (ownedAndScaled deployment owners n).spec =
        some ((deployment.spec.getD {}).withReplicas n) := rfl
    refine (get?_spec_changesTo hwanted).trans ?_
    cases deployment.spec with
    | none => exact change?_none _
    | some spec => exact change?_withReplicas spec n
  others name hmetadata hspec :=
    get?_diffMembers_of_eq (Deployment.ordered_encode _)
      (member?_encodeWith_of_ne _ _ _ _ deployment.status hmetadata hspec)

/-- The lock adds the resource version to the change of the metadata. -/
theorem PatchMembers.locked {change members : Members}
    (h : PatchMembers deployment change n members) (version : String) :
    ∃ locked, lockVersion version (.obj members) = .obj locked ∧
      PatchMembers deployment (insert "resourceVersion" (.str version) change) n locked := by
  have hchange : (get? members "metadata").getD .emptyObject = .obj change := by
    rw [h.metadata]
    exact getD_sparse change
  refine ⟨_, lockVersion_obj hchange, ordered_insert h.ordered _ _, ?_, ?_, ?_⟩
  · rw [get?_insert, if_pos rfl]
    exact (sparse_insert _ _ _).symm
  · rw [get?_insert, if_neg (by decide)]
    exact h.spec
  · intro name hmetadata hspec
    rw [get?_insert, if_neg (Ne.symm hmetadata)]
    exact h.others name hmetadata hspec

/-- With the lock or without it, the patch has a change of the metadata and one of the
specification. -/
theorem patchMembers_patchTo (config : Config) (deployment : Deployment)
    (owners : List OwnerReference) (n : Int32) :
    ∃ members, patchTo config deployment (ownedAndScaled deployment owners n) = .obj members ∧
      PatchMembers deployment (metadataChange config deployment.metadata owners) n members := by
  have hunlocked : PatchMembers deployment (ownersChange deployment.metadata owners) n _ :=
    patchMembers_changesTo
  unfold patchTo metadataChange
  cases config.optimisticLock with
  | false => exact ⟨_, rfl, hunlocked⟩
  | true =>
      cases deployment.metadata.resourceVersion with
      | none => exact ⟨_, rfl, hunlocked⟩
      | some version => exact hunlocked.locked version

variable {change members : Members}

/-- All that a patch holds is plain, if the change of the metadata is. -/
theorem PatchMembers.plain (h : PatchMembers deployment change n members)
    (hchange : (Json.obj change).Plain) : (Json.obj members).Plain := by
  refine plain_of_get? h.ordered fun name value hvalue => ?_
  by_cases hmetadata : name = "metadata"
  · rw [hmetadata, h.metadata] at hvalue
    obtain ⟨-, rfl⟩ := sparse_eq_some_iff.1 hvalue
    exact hchange
  · by_cases hspec : name = "spec"
    · rw [hspec, h.spec] at hvalue
      exact plain_specChange? n hvalue
    · rw [h.others name hmetadata hspec] at hvalue
      cases hvalue

/-- On a Deployment with a specification a patch has these changes under each name. -/
def changesUnder (change : Members) (spec : DeploymentSpec) (n : Int32) (name : String) :
    Members :=
  if name = "metadata" then change else if name = "spec" then specChange spec n else []

theorem PatchMembers.member?_eq_sparse {spec : DeploymentSpec}
    (h : PatchMembers deployment change n members) (hspec : deployment.spec = some spec)
    (name : String) :
    (Json.obj members).member? name = sparse (changesUnder change spec n name) := by
  rw [Json.member?_obj]
  unfold changesUnder
  split
  · next hmetadata => rw [hmetadata, h.metadata]
  · next hmetadata =>
    split
    · next hname =>
      rw [hname, h.spec, hspec]
      rfl
    · next hname => exact h.others name hmetadata hname

theorem flat_changesUnder (hchange : Flat change) (spec : DeploymentSpec) (n : Int32)
    (name : String) : Flat (changesUnder change spec n name) := by
  unfold changesUnder
  split
  · exact hchange
  · split
    · intro field found hfound
      exact (plain_specChange spec n hfound).2
    · exact flat_nil

theorem get?_changesUnder (change : Members) (spec : DeploymentSpec) (n : Int32)
    (name field : String) (value : Json) :
    get? (changesUnder change spec n name) field = some value ↔
      (name = "metadata" ∧ get? change field = some value) ∨
        (name = "spec" ∧ get? (specChange spec n) field = some value) := by
  unfold changesUnder
  split
  · next hmetadata => simp [hmetadata]
  · next hmetadata =>
    split
    · next hname => simp [hname]
    · next hname => simp [hmetadata, hname]

/-- On a Deployment with a specification a patch mentions the fields of its two changes. -/
theorem PatchMembers.mentions_iff {spec : DeploymentSpec}
    (h : PatchMembers deployment change n members) (hspec : deployment.spec = some spec)
    (hchange : Flat change) (path : List String) (value : Json) :
    Mentions (.obj members) path value ↔
      (∃ field, path = ["metadata", field] ∧ get? change field = some value) ∨
        ∃ field, path = ["spec", field] ∧ get? (specChange spec n) field = some value := by
  rw [mentions_iff_of_sparse (h.member?_eq_sparse hspec) (flat_changesUnder hchange spec n)]
  constructor
  · rintro ⟨name, field, rfl, hfound⟩
    rcases (get?_changesUnder change spec n name field value).1 hfound with
      ⟨rfl, hfound⟩ | ⟨rfl, hfound⟩
    · exact .inl ⟨field, rfl, hfound⟩
    · exact .inr ⟨field, rfl, hfound⟩
  · rintro (⟨field, rfl, hfound⟩ | ⟨field, rfl, hfound⟩)
    · exact ⟨_, field, rfl, (get?_changesUnder _ _ _ _ _ _).2 (.inl ⟨rfl, hfound⟩)⟩
    · exact ⟨_, field, rfl, (get?_changesUnder _ _ _ _ _ _).2 (.inr ⟨rfl, hfound⟩)⟩

end Members

/-! ## The patch of a step -/

section Steps

variable {config : Config} {scaler : Scaler} {deployment owned : Deployment}

/-- What the two changes hold is due, and nothing else is. -/
theorem due_iff {spec : DeploymentSpec} (hspec : deployment.spec = some spec)
    {owners : List OwnerReference} (howned : owned.metadata.ownerReferences = some owners)
    (path : List String) (value : Json) :
    ((∃ field, path = ["metadata", field] ∧
          get? (metadataChange config deployment.metadata owners) field = some value) ∨
        ∃ field, path = ["spec", field] ∧
          get? (specChange spec scaler.spec.replicaCount) field = some value) ↔
      Due config scaler deployment owned path value := by
  have hreplicas : deployment.replicas? = spec.replicas := by
    rw [Deployment.replicas?, hspec, Option.bind_some]
  constructor
  · rintro (⟨field, rfl, hfound⟩ | ⟨field, rfl, hfound⟩)
    · rcases (get?_metadataChange _ _ _ _ _).1 hfound with howners | hversion
      · obtain ⟨hother, rfl, rfl⟩ := (get?_ownersChange _ _ _ _).1 howners
        exact .owners howned (howned ▸ hother)
      · obtain ⟨version, hlock, hversion, rfl, rfl⟩ := hversion
        exact .version hlock hversion
    · obtain ⟨hother, rfl, rfl⟩ := (get?_specChange _ _ _ _).1 hfound
      exact .replicas (hreplicas ▸ hother)
  · intro hdue
    cases hdue with
    | replicas hother =>
        exact .inr ⟨_, rfl, (get?_specChange _ _ _ _).2 ⟨hreplicas ▸ hother, rfl, rfl⟩⟩
    | owners hgiven hother =>
        obtain rfl := Option.some.inj (howned.symm.trans hgiven)
        have howners := (get?_ownersChange _ _ _ _).2 ⟨howned ▸ hother, rfl, rfl⟩
        exact .inl ⟨_, rfl, (get?_metadataChange _ _ _ _ _).2 (.inl howners)⟩
    | version hlock hversion =>
        exact .inl ⟨_, rfl, (get?_metadataChange _ _ _ _ _).2 (.inr ⟨_, hlock, hversion, rfl, rfl⟩)⟩

/-- The patch to an owned Deployment with the wanted number of replicas. -/
theorem sends_patchTo (config : Config) (scaler : Scaler) {owner : OwnerReference}
    (h : deployment.withOwner owner = .ok owned) :
    Sends config scaler deployment owned
      (patchTo config deployment (owned.withReplicas scaler.spec.replicaCount)) := by
  obtain ⟨owners, -, rfl⟩ := (deployment.withOwner_eq_ok_iff owner owned).1 h
  have hversion : (ownedAndScaled deployment owners
      scaler.spec.replicaCount).metadata.resourceVersion = deployment.metadata.resourceVersion := rfl
  have hleads := apply_patchTo config hversion
  obtain ⟨members, hpatch, hmembers⟩ :=
    patchMembers_patchTo config deployment owners scaler.spec.replicaCount
  have hchange := plain_of_get? (ordered_metadataChange config deployment.metadata owners)
    fun _ _ hfound => (plain_metadataChange _ _ _ hfound).1
  have hplain := hmembers.plain hchange
  have hfree : NullFree (.obj members) := nullFree_of_plain hplain
  change Sends config scaler deployment _ (patchTo config deployment
    (ownedAndScaled deployment owners scaler.spec.replicaCount))
  rw [hpatch] at hleads ⊢
  refine ⟨hleads, hfree, isSome_lookup_apply hplain.wellFormed hfree, ?_⟩
  intro hsome path value
  obtain ⟨spec, hspec⟩ := Option.isSome_iff_exists.1 hsome
  have hflat : Flat (metadataChange config deployment.metadata owners) :=
    fun _ _ hfound => (plain_metadataChange _ _ _ hfound).2
  rw [hmembers.mentions_iff hspec hflat]
  exact due_iff hspec rfl path value

/-- The patch says nothing of the replicas if they are those of the scaler already, and sets them
otherwise. -/
theorem lookup_replicas_patchTo (config : Config) {owner : OwnerReference} {wanted : Deployment}
    (h : desired scaler owner deployment = .ok wanted) :
    (patchTo config deployment wanted).lookup ["spec", "replicas"] =
      if deployment.replicas? = some scaler.spec.replicaCount then none
      else some (.ofInt32 scaler.spec.replicaCount) := by
  obtain ⟨owners, -, rfl⟩ := exists_owners_of_desired h
  obtain ⟨members, hpatch, hmembers⟩ :=
    patchMembers_patchTo config deployment owners scaler.spec.replicaCount
  change (patchTo config deployment
    (ownedAndScaled deployment owners scaler.spec.replicaCount)).lookup _ = _
  rw [hpatch, lookup_cons, Json.member?_obj, hmembers.spec, Deployment.replicas?]
  cases deployment.spec with
  | none =>
      rw [specChange?, Option.bind_some, lookup_cons, Json.member?, DeploymentSpec.get?_replicas]
      rfl
  | some spec =>
      rw [Option.bind_some, specChange?, specChange]
      split
      · rfl
      · exact lookup_singleton [("replicas", .ofInt32 scaler.spec.replicaCount)] "replicas"

/-- A step that sends a patch was told a Deployment that the scaler can own, and the patch makes the
owned one with the wanted replicas of it, by setting what is due. -/
theorem patch_sent {now : Time} {response : Option Response} {state : State} {key : Key}
    {patch : Json}
    (h : (step now config scaler response state).2 = some (.patchDeployment key patch)) :
    ∃ deployment owner owned,
      response = some (.deployment (.ok deployment)) ∧ scaler.ownerReference? = some owner ∧
        deployment.withOwner owner = .ok owned ∧ Sends config scaler deployment owned patch := by
  have hmove : Move now config scaler state response (step now config scaler response state).2 _ :=
    step_move now config scaler response state
  rw [h] at hmove
  obtain ⟨-, -, deployment, owner, wanted, hresponse, howner, hwanted, rfl, -⟩ :=
    hmove.of_patchDeployment
  obtain ⟨owned, howned, rfl⟩ := desired_eq_ok_iff.1 hwanted
  exact ⟨deployment, owner, owned, hresponse, howner, howned, sends_patchTo config scaler howned⟩

end Steps

/-- A scaler that asks for three replicas. -/
def sampleSender : Scaler :=
  { metadata := { name := some "web", ns := some "shop", uid := some "scaler" }
    spec := ⟨3, { apiVersion := none, kind := none, name := "web", uid := none }⟩
    status := none }

/-- A Deployment with two replicas and no owner. -/
def sampleFetched : Deployment :=
  { metadata := { name := some "front", resourceVersion := some "7" }
    spec := some { replicas := some 2 } }

/-- What has to be said about it, in the order of the names. -/
def samplePatch : Json :=
  .obj [
    ("metadata", .obj [
      ("ownerReferences", .arr [.obj [("apiVersion", .str apiVersion), ("controller", .bool true),
        ("kind", .str Scaler.kind), ("name", .str "web"), ("uid", .str "scaler")]]),
      ("resourceVersion", .str "7")]),
    ("spec", .obj [("replicas", .int 3)])]

theorem patch_sent_sampleFetched :
    (step default { optimisticLock := true } sampleSender (some (.deployment (.ok sampleFetched)))
        { stage := .awaiting .afterGetDeployment }).2 =
      some (.patchDeployment ⟨"shop", "front"⟩ samplePatch) ∧
    ∃ deployment owner owned,
      some (Response.deployment (.ok sampleFetched)) = some (.deployment (.ok deployment)) ∧
        sampleSender.ownerReference? = some owner ∧ deployment.withOwner owner = .ok owned ∧
        Sends { optimisticLock := true } sampleSender deployment owned samplePatch := by
  have hstep : (step default { optimisticLock := true } sampleSender
      (some (.deployment (.ok sampleFetched))) { stage := .awaiting .afterGetDeployment }).2 =
        some (.patchDeployment ⟨"shop", "front"⟩ samplePatch) := by rfl
  exact ⟨hstep, patch_sent hstep⟩

end ReplicaKeeper.Reconcile
