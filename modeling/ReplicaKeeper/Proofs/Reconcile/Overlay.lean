import ReplicaKeeper.Proofs.Reconcile.Patch

/-!
# The patch on a Deployment that has changed since

A patch without the lock says nothing about what the reconcile leaves as it is, so it can meet
another Deployment than the one that was fetched.  `overlaid` is what it makes of any such one: the
owners are set as a whole if the fetched ones are not the wanted ones already, the replicas are set
if the fetched number is not the wanted one already, and everything else stays.
`patched_patchTo_overlaid_iff` says so for the answer of a server.
-/

set_option autoImplicit false

namespace ReplicaKeeper

open Entries

/-! ## Single fields -/

namespace ObjectMeta

/-- The metadata with other owners. -/
def withOwners (owners : List OwnerReference) (metadata : ObjectMeta) : ObjectMeta :=
  { metadata with ownerReferences := some owners }

theorem withOwners_of_eq {metadata : ObjectMeta} {owners : List OwnerReference}
    (h : metadata.ownerReferences = some owners) : metadata.withOwners owners = metadata := by
  unfold withOwners
  rw [← h]

theorem get?_ownerReferences (metadata : ObjectMeta) :
    get? metadata.encode.membersOrEmpty "ownerReferences" =
      metadata.ownerReferences.map fun owners => .arr (owners.map OwnerReference.encode) := by
  change metadata.encode.member? "ownerReferences" = _
  simp [encode, Json.member?_record_cons]

/-- The owners are one field of the metadata. -/
theorem get?_withOwners_of_ne (metadata : ObjectMeta) (owners : List OwnerReference) {name : String}
    (h : name ≠ "ownerReferences") :
    get? (metadata.withOwners owners).encode.membersOrEmpty name =
      get? metadata.encode.membersOrEmpty name := by
  change (metadata.withOwners owners).encode.member? name = metadata.encode.member? name
  simp [withOwners, encode, Json.member?_record_cons, h.symm]

end ObjectMeta

namespace DeploymentSpec

/-- The specification with a number of replicas. -/
def withReplicas (replicas : Int32) (spec : DeploymentSpec) : DeploymentSpec :=
  { spec with replicas := some replicas }

theorem withReplicas_of_eq {spec : DeploymentSpec} {replicas : Int32}
    (h : spec.replicas = some replicas) : spec.withReplicas replicas = spec := by
  unfold withReplicas
  rw [← h]

theorem ordered_encode (spec : DeploymentSpec) : Ordered spec.encode.membersOrEmpty :=
  (readsBack.plain spec).1

theorem get?_replicas (spec : DeploymentSpec) :
    get? spec.encode.membersOrEmpty "replicas" = spec.replicas.map Json.ofInt32 := by
  change spec.encode.member? "replicas" = _
  simp [encode, Json.member?_record_cons]

/-- The replicas are one field of the specification. -/
theorem get?_withReplicas_of_ne (spec : DeploymentSpec) (replicas : Int32) {name : String}
    (h : name ≠ "replicas") :
    get? (spec.withReplicas replicas).encode.membersOrEmpty name =
      get? spec.encode.membersOrEmpty name := by
  change (spec.withReplicas replicas).encode.member? name = spec.encode.member? name
  simp [withReplicas, encode, Json.member?_record_cons, h.symm]

/-- A new specification holds no time. -/
theorem inCalendar_withReplicas_empty (n : Int32) : (withReplicas n {}).InCalendar := by
  intro metadata hmetadata
  cases hmetadata

end DeploymentSpec

namespace Deployment

/-- The number of replicas that a Deployment asks for. -/
def replicas? (deployment : Deployment) : Option Int32 := deployment.spec.bind (·.replicas)

@[simp] theorem replicas?_wholeSeconds (deployment : Deployment) :
    deployment.wholeSeconds.replicas? = deployment.replicas? := by
  unfold replicas? wholeSeconds
  cases deployment.spec <;> rfl

@[simp] theorem replicas?_withVersion (version : Option String) (deployment : Deployment) :
    (deployment.withVersion version).replicas? = deployment.replicas? := rfl

/-- Setting the replicas that are there already changes nothing. -/
theorem withReplicas_of_eq {deployment : Deployment} {replicas : Int32}
    (h : deployment.replicas? = some replicas) :
    some ((deployment.spec.getD {}).withReplicas replicas) = deployment.spec := by
  unfold replicas? at h
  cases hspec : deployment.spec with
  | none =>
      rw [hspec] at h
      cases h
  | some spec =>
      rw [hspec] at h
      exact congrArg some (DeploymentSpec.withReplicas_of_eq h)

end Deployment

namespace Reconcile

open MergePatch

/-! ## Patches of single fields -/

/-- Where two objects differ in one field, the patch between them has this field and no other. -/
theorem diffMembers_field {α : Type} {encode : α → Json} {decode : Decoder α}
    (hencode : ReadsBackAll encode decode) {value : α} (hobject : (encode value).isObject = false)
    {base wanted : Members} (hbase : Ordered base) (hwanted : Ordered wanted) (name : String)
    {was : Option α} (hwas : get? base name = was.map encode) (hother : was ≠ some value)
    (hvalue : get? wanted name = some (encode value))
    (hothers : ∀ other, other ≠ name → get? wanted other = get? base other) :
    diffMembers base wanted = [(name, encode value)] := by
  have hchange : change? (encode value) (was.map encode) = some (encode value) := by
    cases was with
    | none => exact change?_none _
    | some found =>
        refine change?_of_not_isObject (.inr hobject) (Bool.eq_false_iff.2 fun hequal => ?_)
        have hencoded := Json.eq_of_beq (hencode.plain value) hequal
        exact hother (congrArg some (hencode.injective hencoded))
  refine members_ext (ordered_diffMembers hbase wanted) (List.pairwise_singleton _ _) fun other => ?_
  rw [get?_cons, get?_nil]
  by_cases hname : name = other
  · subst hname
    rw [get?_diffMembers hwanted, hvalue, hwas, if_pos rfl]
    exact hchange
  · rw [get?_diffMembers_of_eq hwanted (hothers other (Ne.symm hname)), if_neg hname]

/-- A patch that was computed to set one field to a value sets it on other members as well, and it
does nothing else. -/
theorem applyMembers_field {α : Type} {encode : α → Json} {decode : Decoder α}
    (hencode : ReadsBackAll encode decode) {value : α} (hobject : (encode value).isObject = false)
    {base wanted present after : Members} (hbase : Ordered base) (hwanted : Ordered wanted)
    (hpresent : Ordered present) (hafter : Ordered after) (name : String) {was : Option α}
    (hwas : get? base name = was.map encode) (hother : was ≠ some value)
    (hvalue : get? wanted name = some (encode value))
    (hset : get? after name = some (encode value))
    (hothers : ∀ other, other ≠ name →
      get? wanted other = get? base other ∧ get? after other = get? present other) :
    applyMembers (diffMembers base wanted) present = after := by
  have hchanges : Ordered (diffMembers base wanted) := ordered_diffMembers hbase wanted
  rw [diffMembers_field hencode hobject hbase hwanted name hwas hother hvalue fun other hname =>
    (hothers other hname).1] at hchanges ⊢
  refine members_ext (ordered_applyMembers _ hpresent) hafter fun other => ?_
  rw [get?_applyMembers_eq_become hchanges, get?_cons, get?_nil]
  by_cases hname : name = other
  · subst hname
    rw [if_pos rfl, become_some (hencode.plain value).isNull_eq_false,
      apply_of_not_isObject hobject, hset]
  · rw [if_neg hname, (hothers other (Ne.symm hname)).2]
    rfl

/-- A patch that sets the owners sets them as a whole, and only if they were others. -/
theorem become_owners (fetched met : ObjectMeta) (owners : List OwnerReference) :
    become (change? (fetched.withOwners owners).encode (some fetched.encode)) (some met.encode) =
      some (if fetched.ownerReferences = some owners then met
        else met.withOwners owners).encode := by
  by_cases hsame : fetched.ownerReferences = some owners
  · rw [ObjectMeta.withOwners_of_eq hsame, change?_self, if_pos hsame]
    rfl
  · have hwanted := (fetched.withOwners owners).ordered_encode
    have happly := applyMembers_field OwnerReference.readsBack.list rfl fetched.ordered_encode
      hwanted met.ordered_encode (met.withOwners owners).ordered_encode "ownerReferences"
      fetched.get?_ownerReferences hsame (ObjectMeta.get?_ownerReferences _)
      (ObjectMeta.get?_ownerReferences _) fun other hother =>
        ⟨fetched.get?_withOwners_of_ne owners hother, met.get?_withOwners_of_ne owners hother⟩
    rw [if_neg hsame]
    refine (become_change?_obj fetched.ordered_encode hwanted met.encode.membersOrEmpty).trans ?_
    exact congrArg (fun members => some (Json.obj members)) happly

/-- A patch that sets the replicas of a specification, on another one. -/
theorem applyMembers_replicas {fetched : DeploymentSpec} {n : Int32}
    (hother : fetched.replicas ≠ some n) {present after : Members} (hpresent : Ordered present)
    (hafter : Ordered after) (hset : get? after "replicas" = some (.ofInt32 n))
    (hothers : ∀ other, other ≠ "replicas" → get? after other = get? present other) :
    applyMembers (diffMembers fetched.encode.membersOrEmpty
      (fetched.withReplicas n).encode.membersOrEmpty) present = after :=
  applyMembers_field readsBack_int32 rfl fetched.ordered_encode
    (fetched.withReplicas n).ordered_encode hpresent hafter "replicas" fetched.get?_replicas hother
    (DeploymentSpec.get?_replicas _) hset fun other hname =>
      ⟨fetched.get?_withReplicas_of_ne n hname, hothers other hname⟩

/-! ## The specification -/

/-- A value that is read as a specification, written in full or not. -/
def ReadAs (written : Option Json) (spec : Option DeploymentSpec) : Prop :=
  match written, spec with
  | none, none => True
  | some value, some spec =>
      value.Plain ∧ value.decodeAs DeploymentSpec.decode = spec.encode.decodeAs DeploymentSpec.decode
  | _, _ => False

theorem readAs_encode (spec : Option DeploymentSpec) :
    ReadAs (spec.map DeploymentSpec.encode) spec := by
  cases spec with
  | none => trivial
  | some spec => exact ⟨DeploymentSpec.readsBack.plain spec, rfl⟩

/-- The empty object as a patch changes no object. -/
theorem apply_emptyObject (members : Members) : apply .emptyObject (.obj members) = .obj members := by
  rw [Json.emptyObject, apply, applyMembers]
  rfl

/-- A new specification on one that another writer has made in the meantime: all that it says is the
number of replicas. -/
theorem become_new_spec (met : DeploymentSpec) (n : Int32) :
    become (some (DeploymentSpec.withReplicas n {}).encode) (some met.encode) =
      some (met.withReplicas n).encode := by
  have hordered := (DeploymentSpec.withReplicas n {}).ordered_encode
  have hreplicas (found : Option Json) : become (some (.ofInt32 n)) found = some (.ofInt32 n) := by
    rw [become_some rfl, apply_of_not_isObject rfl]
  have hselector : become (some ({} : LabelSelector).encode) (some met.selector.encode) =
      some met.selector.encode :=
    congrArg some (apply_emptyObject met.selector.encode.membersOrEmpty)
  have htemplate : become (some ({} : PodTemplate).encode) (some met.template.encode) =
      some met.template.encode :=
    congrArg some (apply_emptyObject met.template.encode.membersOrEmpty)
  refine congrArg some (apply_obj_eq hordered met.ordered_encode
    (met.withReplicas n).ordered_encode fun name => ?_)
  change become ((DeploymentSpec.withReplicas n {}).encode.member? name) (met.encode.member? name) =
    (met.withReplicas n).encode.member? name
  simp only [DeploymentSpec.encode, DeploymentSpec.withReplicas, Json.member?_record_cons]
  by_cases hname : name = "replicas" ∨ name = "selector" ∨ name = "template"
  · rcases hname with rfl | rfl | rfl
    · simpa using hreplicas _
    · simpa using hselector
    · simpa using htemplate
  · simp only [not_or, ← ne_eq] at hname
    simp [become, hname.1.symm, hname.2.1.symm, hname.2.2.symm]

/-- Where another writer has removed the specification, the number of replicas is all that is
written, and the rest is read as empty. -/
theorem readAs_replicas (n : Int32) :
    ReadAs (some (.obj [("replicas", .ofInt32 n)])) (some (DeploymentSpec.withReplicas n {})) := by
  have hplain : (Json.obj [("replicas", .ofInt32 n)]).Plain :=
    ⟨List.pairwise_singleton _ _, plain_ofInt32 n, trivial⟩
  have hrecord : Json.obj [("replicas", .ofInt32 n)] =
      .record [("replicas", (some n).map Json.ofInt32)] := rfl
  refine ⟨hplain, Eq.trans ?_ (DeploymentSpec.readsBack.ok
    (DeploymentSpec.inCalendar_withReplicas_empty n)).symm⟩
  unfold Json.decodeAs DeploymentSpec.decode
  rw [hrecord, members_record]
  rw [ok_bind, readsBack_int32.lastOptionalField none (by simp), ok_bind,
    readsBack_bool.lastOptionalField none (by simp), ok_bind,
    readsBack_int32.lastOptionalField none (by simp), ok_bind,
    readsBack_int32.lastOptionalField (some n) (by simp), ok_bind,
    readsBack_int32.lastOptionalField none (by simp), ok_bind,
    LabelSelector.readsBack.lastOptionalField none (by simp), ok_bind,
    DeploymentStrategy.readsBack.lastOptionalField none (by simp), ok_bind,
    (PodTemplate.readsBack.lastOptionalField none (by simp)).1 (by simp), ok_bind]
  rfl

/-- Another number of replicas, on a specification that is still there. -/
theorem become_replicas {fetched : DeploymentSpec} {n : Int32} (hother : fetched.replicas ≠ some n)
    (met : DeploymentSpec) :
    become (change? (fetched.withReplicas n).encode (some fetched.encode)) (some met.encode) =
      some (met.withReplicas n).encode := by
  have hwanted := (fetched.withReplicas n).ordered_encode
  have happly := applyMembers_replicas hother met.ordered_encode (met.withReplicas n).ordered_encode
    (DeploymentSpec.get?_replicas _) fun other hname => met.get?_withReplicas_of_ne n hname
  refine (become_change?_obj fetched.ordered_encode hwanted met.encode.membersOrEmpty).trans ?_
  exact congrArg (fun members => some (Json.obj members)) happly

/-- Another number of replicas, where the specification has been removed. -/
theorem become_replicas_none {fetched : DeploymentSpec} {n : Int32}
    (hother : fetched.replicas ≠ some n) :
    become (change? (fetched.withReplicas n).encode (some fetched.encode)) none =
      some (.obj [("replicas", .ofInt32 n)]) := by
  have hwanted := (fetched.withReplicas n).ordered_encode
  have happly := applyMembers_replicas hother ordered_nil
    (List.pairwise_singleton _ ("replicas", Json.ofInt32 n)) (by simp [get?_cons])
    fun other hname => by simp [get?_cons, hname.symm]
  refine (congrArg (become · none) (change?_obj fetched.ordered_encode hwanted)).trans ?_
  split
  · next hempty =>
    rw [hempty, applyMembers] at happly
    cases happly
  · rw [become_some rfl, apply_obj]
    exact congrArg (fun members => some (Json.obj members)) happly

/-- What becomes of the specification that a patch meets. -/
theorem readAs_become_spec (fetched met : Option DeploymentSpec) (n : Int32) :
    ReadAs
      (become (change? ((fetched.getD {}).withReplicas n).encode
        (fetched.map DeploymentSpec.encode)) (met.map DeploymentSpec.encode))
      (if fetched.bind (·.replicas) = some n then met else some ((met.getD {}).withReplicas n)) := by
  cases fetched with
  | none =>
      rw [Option.map_none, change?_none, if_neg (by simp), Option.getD_none]
      cases met with
      | none =>
          have hplain := DeploymentSpec.readsBack.plain (DeploymentSpec.withReplicas n {})
          rw [Option.map_none, become_some hplain.isNull_eq_false,
            apply_of_membersOrEmpty_eq_nil hplain rfl]
          exact readAs_encode (some _)
      | some met =>
          rw [Option.map_some, become_new_spec]
          exact readAs_encode (some _)
  | some fetched =>
      rw [Option.map_some, Option.getD_some, Option.bind_some]
      by_cases hsame : fetched.replicas = some n
      · rw [if_pos hsame, DeploymentSpec.withReplicas_of_eq hsame, change?_self]
        exact readAs_encode met
      · rw [if_neg hsame]
        cases met with
        | none =>
            rw [Option.map_none, become_replicas_none hsame]
            exact readAs_replicas n
        | some met =>
            rw [Option.map_some, become_replicas hsame]
            exact readAs_encode (some _)

/-! ## The Deployment -/

/-- What a patch that was computed for a fetched Deployment makes of the one that it meets. -/
def overlaid (scaler : Scaler) (owner : OwnerReference) (fetched met : Deployment) : Deployment :=
  { met with
    metadata :=
      if fetched.metadata.ownerReferences = some (owner.place fetched.metadata.owners) then
        met.metadata
      else met.metadata.withOwners (owner.place fetched.metadata.owners)
    spec :=
      if fetched.replicas? = some scaler.spec.replicaCount then met.spec
      else some ((met.spec.getD {}).withReplicas scaler.spec.replicaCount) }

/-- A Deployment with the given specification. -/
def encodeWith (metadata : ObjectMeta) (spec : Option Json) (status : Option DeploymentStatus) :
    Json :=
  .record [("apiVersion", some (.str Deployment.apiVersion)), ("kind", some (.str Deployment.kind)),
    ("metadata", some metadata.encode), ("spec", spec),
    ("status", status.map DeploymentStatus.encode)]

theorem ordered_encodeWith (metadata : ObjectMeta) (spec : Option Json)
    (status : Option DeploymentStatus) :
    Ordered (encodeWith metadata spec status).membersOrEmpty := by
  refine Json.ordered_record ?_
  simp only [List.map_cons, List.map_nil]
  decide

theorem member?_encodeWith (metadata : ObjectMeta) (spec : Option Json)
    (status : Option DeploymentStatus) :
    (encodeWith metadata spec status).member? "metadata" = some metadata.encode ∧
      (encodeWith metadata spec status).member? "spec" = spec := by
  constructor <;> simp [encodeWith, Json.member?_record_cons]

/-- Metadata and specification are two fields of a Deployment. -/
theorem member?_encodeWith_of_ne (metadata other : ObjectMeta) (spec another : Option Json)
    (status : Option DeploymentStatus) {name : String} (hmetadata : name ≠ "metadata")
    (hspec : name ≠ "spec") :
    (encodeWith metadata spec status).member? name =
      (encodeWith other another status).member? name := by
  simp [encodeWith, Json.member?_record_cons, hmetadata.symm, hspec.symm]

/-- A field is read by its own members. -/
theorem lastField_congr {α : Type} {fields others : Fields} {name : String}
    (h : fields.under name = others.under name) (decode : Decoder α) :
    fields.lastField name decode = others.lastField name decode ∧
      fields.lastOptionalField name decode = others.lastOptionalField name decode := by
  unfold Fields.lastOptionalField Fields.lastField
  rw [h]
  exact ⟨rfl, rfl⟩

/-- A field that holds a specification, written in full or not. -/
theorem lastOptionalField_of_readAs {fields others : Fields} {name : String} {written : Option Json}
    {spec : Option DeploymentSpec} (h : ReadAs written spec)
    (hwritten : fields.under name = (written.map Json.document).toList)
    (hencoded : others.under name = ((spec.map DeploymentSpec.encode).map Json.document).toList) :
    fields.lastOptionalField name DeploymentSpec.decode =
      others.lastOptionalField name DeploymentSpec.decode := by
  cases spec with
  | none =>
      cases written with
      | none => exact (lastField_congr (hwritten.trans hencoded.symm) _).2
      | some value => exact absurd h id
  | some spec =>
      cases written with
      | none => exact absurd h id
      | some value =>
          rw [lastOptionalField_of_plain h.1 hwritten,
            lastOptionalField_of_plain (DeploymentSpec.readsBack.plain spec) hencoded, h.2]

/-- A specification need not be written in full to be read. -/
theorem decodeAs_encodeWith {written : Option Json} {deployment : Deployment}
    (h : ReadAs written deployment.spec) :
    (encodeWith deployment.metadata written deployment.status).decodeAs Deployment.decode =
      deployment.encode.decodeAs Deployment.decode := by
  unfold Json.decodeAs Deployment.decode encodeWith Deployment.encode
  rw [members_record, members_record, ok_bind, ok_bind]
  generalize hleft : present _ = left
  generalize hright : present _ = right
  have hsame : ∀ name, name ≠ "spec" → left.under name = right.under name := by
    intro name hname
    rw [← hleft, ← hright]
    simp [hname.symm]
  have hspec : left.lastOptionalField "spec" DeploymentSpec.decode =
      right.lastOptionalField "spec" DeploymentSpec.decode := by
    refine lastOptionalField_of_readAs h ?_ ?_
    · rw [← hleft]
      simp
    · rw [← hright]
      simp
  rw [(lastField_congr (hsame "apiVersion" (by decide)) _).1,
    (lastField_congr (hsame "kind" (by decide)) _).1,
    (lastField_congr (hsame "metadata" (by decide)) _).2, hspec,
    (lastField_congr (hsame "status" (by decide)) _).2]

/-- What is applied to a Deployment that another writer may have changed. -/
theorem apply_patchTo_met {config : Config} (hlock : config.optimisticLock = false) {scaler : Scaler}
    {owner : OwnerReference} {fetched wanted : Deployment}
    (h : desired scaler owner fetched = .ok wanted) (met : Deployment) :
    ∃ written, ReadAs written (overlaid scaler owner fetched met).spec ∧
      apply (patchTo config fetched wanted) met.encode =
        encodeWith (overlaid scaler owner fetched met).metadata written met.status := by
  obtain ⟨owners, howners, hwanted⟩ := exists_owners_of_desired h
  obtain ⟨-, -, -, rfl⟩ := (OwnerReference.addTo_eq_ok_iff _ _ _).1 howners
  have hpatch : patchTo config fetched wanted = .obj (changesTo fetched wanted) := by
    unfold patchTo
    rw [hlock]
    rfl
  refine ⟨_, readAs_become_spec fetched.spec met.spec scaler.spec.replicaCount, ?_⟩
  rw [hpatch]
  refine apply_obj_eq ordered_changesTo met.ordered_encode (ordered_encodeWith _ _ _) fun name => ?_
  change become _ (get? met.encode.membersOrEmpty name) = _
  by_cases hmetadata : name = "metadata"
  · subst hmetadata
    refine Eq.trans ?_ (member?_encodeWith _ _ _).1.symm
    rw [get?_metadata_changesTo, met.get?_metadata, hwanted]
    exact become_owners fetched.metadata met.metadata _
  · by_cases hspec : name = "spec"
    · subst hspec
      refine Eq.trans ?_ (member?_encodeWith _ _ _).2.symm
      rw [get?_spec_changesTo (congrArg Deployment.spec hwanted), met.get?_spec]
      rfl
    · have hunchanged : get? (changesTo fetched wanted) name = none := by
        refine get?_diffMembers_of_eq wanted.ordered_encode ?_
        rw [hwanted]
        exact member?_encodeWith_of_ne _ _ _ _ fetched.status hmetadata hspec
      rw [hunchanged]
      exact member?_encodeWith_of_ne _ _ _ _ met.status hmetadata hspec

section Overlaid

variable {config : Config} {scaler : Scaler} {owner : OwnerReference} {fetched wanted : Deployment}

/-- A patch changes neither the identity of the Deployment that it meets nor its version. -/
theorem metadata_overlaid (scaler : Scaler) (owner : OwnerReference) (fetched met : Deployment) :
    ∃ owners, (overlaid scaler owner fetched met).metadata =
      { met.metadata with ownerReferences := owners } := by
  unfold overlaid
  dsimp only
  split
  · exact ⟨met.metadata.ownerReferences, rfl⟩
  · exact ⟨_, rfl⟩

/-- A patch writes no time. -/
theorem inCalendar_withReplicas (spec : Option DeploymentSpec) (n : Int32) :
    ((spec.getD {}).withReplicas n).InCalendar ↔ ∀ given, spec = some given → given.InCalendar := by
  cases spec with
  | none => exact iff_of_true (DeploymentSpec.inCalendar_withReplicas_empty n) (by simp)
  | some spec =>
      rw [Option.getD_some]
      constructor
      · intro h given hgiven
        obtain rfl := Option.some.inj hgiven
        exact h
      · intro h
        exact h spec rfl

theorem inCalendar_overlaid (scaler : Scaler) (owner : OwnerReference) (fetched met : Deployment) :
    (overlaid scaler owner fetched met).InCalendar ↔ met.InCalendar := by
  obtain ⟨owners, hmetadata⟩ := metadata_overlaid scaler owner fetched met
  have hspec : (∀ spec, (overlaid scaler owner fetched met).spec = some spec → spec.InCalendar) ↔
      ∀ spec, met.spec = some spec → spec.InCalendar := by
    unfold overlaid
    dsimp only
    split
    · exact Iff.rfl
    · rw [← inCalendar_withReplicas met.spec scaler.spec.replicaCount]
      exact ⟨fun h => h _ rfl, fun h spec hspec => Option.some.inj hspec ▸ h⟩
  unfold Deployment.InCalendar
  rw [hmetadata, hspec]
  exact Iff.rfl

/-- The replicas after a patch are the wanted ones, unless they were fetched as such. -/
theorem replicas?_overlaid (scaler : Scaler) (owner : OwnerReference) (fetched met : Deployment) :
    (overlaid scaler owner fetched met).replicas? =
      if fetched.replicas? = some scaler.spec.replicaCount then met.replicas?
      else some scaler.spec.replicaCount := by
  by_cases hsame : fetched.replicas? = some scaler.spec.replicaCount
  · rw [if_pos hsame, Deployment.replicas?, overlaid]
    dsimp only
    rw [if_pos hsame, Deployment.replicas?]
  · rw [if_neg hsame, Deployment.replicas?, overlaid]
    dsimp only
    rw [if_neg hsame]
    rfl

/-- A Deployment with the fetched owners and replicas becomes owned and gets the wanted replicas. -/
theorem overlaid_of_unrelated (scaler : Scaler) (owner : OwnerReference) {fetched met : Deployment}
    (howners : met.metadata.ownerReferences = fetched.metadata.ownerReferences)
    (hreplicas : met.replicas? = fetched.replicas?) :
    overlaid scaler owner fetched met =
      ({ met with metadata := met.metadata.withOwners (owner.place fetched.metadata.owners) } :
        Deployment).withReplicas scaler.spec.replicaCount := by
  have hmetadata : (overlaid scaler owner fetched met).metadata =
      met.metadata.withOwners (owner.place fetched.metadata.owners) := by
    unfold overlaid
    dsimp only
    split
    · next hsame => exact (ObjectMeta.withOwners_of_eq (howners.trans hsame)).symm
    · rfl
  have hspec : (overlaid scaler owner fetched met).spec =
      some ((met.spec.getD {}).withReplicas scaler.spec.replicaCount) := by
    unfold overlaid
    dsimp only
    split
    · next hsame => exact (Deployment.withReplicas_of_eq (hreplicas.trans hsame)).symm
    · rfl
  have hparts : overlaid scaler owner fetched met =
      ⟨(overlaid scaler owner fetched met).metadata, (overlaid scaler owner fetched met).spec,
        met.status⟩ := rfl
  rw [hparts, hmetadata, hspec]
  rfl

/-- Without the lock a patch succeeds on every Deployment under its own key, and makes the overlaid
one of it. -/
theorem patched_patchTo_overlaid_iff (hlock : config.optimisticLock = false)
    (h : desired scaler owner fetched = .ok wanted) (key : Key) (met merged : Deployment) :
    Server.patched key (patchTo config fetched wanted) met = .ok merged ↔
      met.InCalendar ∧ met.metadata.key = key ∧
        merged = (overlaid scaler owner fetched met).wholeSeconds := by
  have hversion := version?_patchTo config (resourceVersion_of_desired h)
  have hfresh : Server.isStale (patchTo config fetched wanted) met = false := by
    unfold Server.isStale
    rw [hversion, hlock]
    rfl
  have hmerge : met.merge (patchTo config fetched wanted) =
      (overlaid scaler owner fetched met).encode.decodeAs Deployment.decode := by
    obtain ⟨written, hread, happly⟩ := apply_patchTo_met hlock h met
    unfold Deployment.merge
    rw [happly]
    exact decodeAs_encodeWith hread
  obtain ⟨owners, hmetadata⟩ := metadata_overlaid scaler owner fetched met
  rw [patched_eq_ok_iff_of_merge hfresh hmerge (by rw [hmetadata]; rfl) (by rw [hmetadata])
    (by rw [hmetadata]), inCalendar_overlaid]

end Overlaid

end Reconcile

end ReplicaKeeper
