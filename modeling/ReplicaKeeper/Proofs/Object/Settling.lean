import ReplicaKeeper.Proofs.Decode.Settling
import ReplicaKeeper.Proofs.MergePatch.ThreeWay
import ReplicaKeeper.Proofs.Reconcile.Patch

/-!
# Reading a Deployment again under the same patch

Every part of a Deployment settles: once a patch has led to it, the same patch leads from its
written form to nothing else.  `Deployment.merge_again` says so for the Deployment as a whole, under
any resource version, unless the patch gives a version itself.
-/

set_option autoImplicit false

namespace ReplicaKeeper

open Entries MergePatch

/-! ## Plain values -/

theorem settles_str : Settles Json.str Decoder.string :=
  readsBack_str.settles_of_not_obj fun _ _ => by rintro ⟨⟩

theorem settles_bool : Settles Json.bool Decoder.bool :=
  readsBack_bool.settles_of_not_obj fun _ _ => by rintro ⟨⟩

theorem settles_int32 : Settles Json.ofInt32 Decoder.int32 :=
  readsBack_int32.settles_of_not_obj fun _ _ => by rintro ⟨⟩

theorem settles_int64 : Settles Json.ofInt64 Decoder.int64 :=
  readsBack_int64.settles_of_not_obj fun _ _ => by rintro ⟨⟩

theorem settles_list {α : Type} {encode : α → Json} {decode : Decoder α}
    (h : ReadsBackAll encode decode) :
    Settles (fun xs : List α => .arr (xs.map encode)) (.list decode) :=
  ReadsBackAll.settles_of_not_obj h.list fun _ _ => by rintro ⟨⟩

theorem Time.encode_wholeSecond (time : Time) : time.wholeSecond.encode = time.encode :=
  congrArg Json.str time.text_wholeSecond

theorem Time.settles : Settles Time.encode Decoder.time :=
  Time.readsBack.settles_of_not_obj Time.encode_wholeSecond fun _ _ => by rintro ⟨⟩

theorem PodAmount.settles : Settles PodAmount.encode PodAmount.decode :=
  PodAmount.readsBack.settles_of_not_obj fun _ _ => by rintro ⟨⟩

/-! ## Labels -/

namespace Labels

/-- Members that are read as texts are texts. -/
theorem members_of_texts {members : Members} {pairs : List (String × String)}
    (h : (fieldsOf members).mapM (fun member => do
      let text ← Decoder.string member.2
      return (member.1, text)) = .ok pairs) :
    members = pairs.map fun pair => (pair.1, Json.str pair.2) := by
  induction members generalizing pairs with
  | nil =>
      obtain rfl := Except.ok.inj h
      rfl
  | cons member members ih =>
      obtain ⟨name, value⟩ := member
      obtain ⟨pair, hpair, hrest⟩ := bind_eq_ok.1 ((List.mapM_cons ..).symm.trans h)
      obtain ⟨others, hothers, hcons⟩ := bind_eq_ok.1 hrest
      obtain ⟨text, htext, hname⟩ := bind_eq_ok.1 hpair
      obtain rfl := Except.ok.inj hcons
      obtain rfl := Except.ok.inj hname
      rw [ih hothers, List.map_cons]
      cases value with
      | str s =>
          obtain rfl := Except.ok.inj htext
          rfl
      | _ => cases htext

/-- Members that are read as labels are what is written of these. -/
theorem encode_of_decode {members : Members} (h : Ordered members) {labels : Labels}
    (hread : (Json.obj members).decodeAs decode = .ok labels) : labels.encode = .obj members := by
  unfold Json.decodeAs decode at hread
  rw [members_obj, ok_bind] at hread
  obtain ⟨pairs, hpairs, hlabels⟩ := bind_eq_ok.1 hread
  obtain rfl := Except.ok.inj hlabels
  obtain rfl := members_of_texts hpairs
  have hpairs := List.pairwise_map.1 h
  rw [show ofPairs pairs = ⟨pairs, hpairs⟩ from ofPairs_entries ⟨pairs, hpairs⟩]
  rfl

/-- A patch that leads to labels changes nothing about them. -/
theorem applyMembers_encode {changes members : Members} (hchanges : (Json.obj changes).WellFormed)
    (hmembers : Ordered members) {labels : Labels}
    (hread : (Json.obj (applyMembers changes members)).decodeAs decode = .ok labels) :
    Json.obj (applyMembers changes labels.encode.membersOrEmpty) = labels.encode := by
  have hordered := ordered_applyMembers changes hmembers
  have hwritten := encode_of_decode hordered hread
  have htexts : ∀ {name value}, Entries.get? (applyMembers changes members) name = some value →
      value.isObject = false := by
    intro name value hvalue
    rw [← Json.membersOrEmpty_obj (applyMembers changes members), ← hwritten] at hvalue
    obtain ⟨entry, -, hentry⟩ := List.mem_map.1 (mem_of_get?_eq_some hvalue)
    cases hentry
    rfl
  rw [hwritten, Json.membersOrEmpty_obj]
  refine congrArg Json.obj (members_ext (ordered_applyMembers _ hordered) hordered fun name => ?_)
  have hname := get?_applyMembers_eq_become hchanges.ordered members name
  rw [get?_applyMembers_eq_become hchanges.ordered]
  cases hchange : Entries.get? changes name with
  | none => rfl
  | some change =>
      rw [hchange] at hname
      cases hnull : change.isNull with
      | true =>
          rw [become, if_pos hnull] at hname ⊢
          exact hname.symm
      | false =>
          rw [become_some hnull] at hname ⊢
          have hobject : change.isObject = false := by
            have htext := htexts hname
            cases change with
            | obj _ =>
                rw [apply_obj] at htext
                cases htext
            | _ => rfl
          rw [hname, apply_of_not_isObject hobject, apply_of_not_isObject hobject]

theorem settles : Settles Labels.encode Labels.decode := by
  refine ReadsBack.settles_of_obj readsBack (fun _ => rfl) fun met hboth hread => ?_
  rw [applyMembers_encode hboth.patch hboth.first hread]
  exact readsBack.ok trivial

end Labels

/-! ## Records -/

theorem LabelSelector.settles : Settles LabelSelector.encode LabelSelector.decode := by
  refine ReadsBack.settles_of_obj readsBack (fun _ => rfl) fun {changes x} met hboth hread => ?_
  unfold Json.decodeAs decode at hread ⊢
  rw [members_under, ok_bind] at hread ⊢
  obtain ⟨matchLabels, hmatchLabels, hx⟩ := bind_eq_ok.1 hread
  obtain rfl := Except.ok.inj hx
  rw [hboth.field Labels.settles (·.matchLabels)
    (fun _ => by simp [encode, Json.member?_record_cons]) hmatchLabels, ok_bind]
  rfl

theorem RollingUpdate.settles : Settles RollingUpdate.encode RollingUpdate.decode := by
  refine ReadsBack.settles_of_obj readsBack (fun _ => rfl) fun {changes x} met hboth hread => ?_
  unfold Json.decodeAs decode at hread ⊢
  rw [members_under, ok_bind] at hread ⊢
  simp only [bind_eq_ok] at hread
  obtain ⟨maxSurge, hmaxSurge, maxUnavailable, hmaxUnavailable, hx⟩ := hread
  obtain rfl := Except.ok.inj hx
  rw [hboth.field PodAmount.settles (·.maxSurge)
      (fun _ => by simp [encode, Json.member?_record_cons]) hmaxSurge, ok_bind,
    hboth.field PodAmount.settles (·.maxUnavailable)
      (fun _ => by simp [encode, Json.member?_record_cons]) hmaxUnavailable, ok_bind]
  rfl

theorem PodSpec.settles : Settles PodSpec.encode PodSpec.decode := by
  refine ReadsBack.settles_of_obj readsBack (fun _ => rfl) fun {changes x} met hboth hread => ?_
  unfold Json.decodeAs decode at hread ⊢
  rw [members_under, ok_bind] at hread ⊢
  simp only [bind_eq_ok] at hread
  obtain ⟨containers, hcontainers, hx⟩ := hread
  obtain rfl := Except.ok.inj hx
  obtain ⟨found, hfound, hsame⟩ := hboth.writtenField (settles_list Container.readsBack)
    (·.containers) (fun _ => by simp [encode]) rfl rfl hcontainers
  rw [hfound, ok_bind, hsame]
  rfl

theorem DeploymentStrategy.settles :
    Settles DeploymentStrategy.encode DeploymentStrategy.decode := by
  refine ReadsBack.settles_of_obj readsBack (fun _ => rfl) fun {changes x} met hboth hread => ?_
  unfold Json.decodeAs decode at hread ⊢
  rw [members_under, ok_bind] at hread ⊢
  simp only [bind_eq_ok] at hread
  obtain ⟨rollingUpdate, hrollingUpdate, type, htype, hx⟩ := hread
  obtain rfl := Except.ok.inj hx
  rw [hboth.field RollingUpdate.settles (·.rollingUpdate)
      (fun _ => by simp [encode, Json.member?_record_cons]) hrollingUpdate, ok_bind,
    hboth.field settles_str (·.type)
      (fun _ => by simp [encode, Json.member?_record_cons]) htype, ok_bind]
  rfl

theorem DeploymentStatus.settles : Settles DeploymentStatus.encode DeploymentStatus.decode := by
  refine ReadsBack.settles_of_obj readsBack (fun _ => rfl) fun {changes x} met hboth hread => ?_
  unfold Json.decodeAs decode at hread ⊢
  rw [members_under, ok_bind] at hread ⊢
  simp only [bind_eq_ok] at hread
  obtain ⟨observedGeneration, hobservedGeneration, readyReplicas, hreadyReplicas, replicas,
    hreplicas, hx⟩ := hread
  obtain rfl := Except.ok.inj hx
  rw [hboth.field settles_int64 (·.observedGeneration)
      (fun _ => by simp [encode, Json.member?_record_cons]) hobservedGeneration, ok_bind,
    hboth.field settles_int32 (·.readyReplicas)
      (fun _ => by simp [encode, Json.member?_record_cons]) hreadyReplicas, ok_bind,
    hboth.field settles_int32 (·.replicas)
      (fun _ => by simp [encode, Json.member?_record_cons]) hreplicas, ok_bind]
  rfl

namespace ObjectMeta

/-- The metadata under another resource version. -/
def withVersion (version : Option String) (metadata : ObjectMeta) : ObjectMeta :=
  { metadata with resourceVersion := version }

/-- Metadata that was read under a patch is read again, whatever becomes of the resource version. -/
theorem read_again {changes : Members} {x : ObjectMeta} {version found : Option String}
    (met : Option ObjectMeta)
    (hboth : MeetsBoth changes ((met.map encode).getD .null) (x.withVersion version).encode)
    (hversion : (fieldsUnder changes ((met.map encode).getD .null)).lastOptionalField
        "resourceVersion" .string = .ok x.resourceVersion →
      (fieldsUnder changes (x.withVersion version).encode).lastOptionalField
        "resourceVersion" .string = .ok found)
    (hread : (Json.obj (applyMembers changes ((met.map encode).getD .null).membersOrEmpty)).decodeAs
      decode = .ok x) :
    (Json.obj (applyMembers changes (x.withVersion version).encode.membersOrEmpty)).decodeAs
        decode = .ok (x.withVersion found) := by
  unfold Json.decodeAs decode at hread ⊢
  rw [members_under, ok_bind] at hread ⊢
  simp only [bind_eq_ok] at hread
  obtain ⟨annotations, hannotations, creationTimestamp, hcreationTimestamp,
    deletionGracePeriodSeconds, hdeletionGracePeriodSeconds, deletionTimestamp, hdeletionTimestamp,
    finalizers, hfinalizers, generateName, hgenerateName, generation, hgeneration, labels, hlabels,
    name, hname, ns, hns, ownerReferences, hownerReferences, resourceVersion, hresourceVersion,
    uid, huid, hx⟩ := hread
  obtain rfl := Except.ok.inj hx
  rw [hboth.field Labels.settles (·.annotations)
      (fun _ => by simp [encode, Json.member?_record_cons]) hannotations, ok_bind,
    hboth.field Time.settles (·.creationTimestamp)
      (fun _ => by simp [encode, Json.member?_record_cons]) hcreationTimestamp, ok_bind,
    hboth.field settles_int64 (·.deletionGracePeriodSeconds)
      (fun _ => by simp [encode, Json.member?_record_cons]) hdeletionGracePeriodSeconds, ok_bind,
    hboth.field Time.settles (·.deletionTimestamp)
      (fun _ => by simp [encode, Json.member?_record_cons]) hdeletionTimestamp, ok_bind,
    hboth.field (settles_list readsBack_str) (·.finalizers)
      (fun _ => by simp [encode, Json.member?_record_cons]) hfinalizers, ok_bind,
    hboth.field settles_str (·.generateName)
      (fun _ => by simp [encode, Json.member?_record_cons]) hgenerateName, ok_bind,
    hboth.field settles_int64 (·.generation)
      (fun _ => by simp [encode, Json.member?_record_cons]) hgeneration, ok_bind,
    hboth.field Labels.settles (·.labels)
      (fun _ => by simp [encode, Json.member?_record_cons]) hlabels, ok_bind,
    hboth.field settles_str (·.name)
      (fun _ => by simp [encode, Json.member?_record_cons]) hname, ok_bind,
    hboth.field settles_str (·.ns)
      (fun _ => by simp [encode, Json.member?_record_cons]) hns, ok_bind,
    hboth.field (settles_list OwnerReference.readsBack) (·.ownerReferences)
      (fun _ => by simp [encode, Json.member?_record_cons]) hownerReferences, ok_bind,
    hversion hresourceVersion, ok_bind,
    hboth.field settles_str (·.uid)
      (fun _ => by simp [encode, Json.member?_record_cons]) huid, ok_bind]
  rfl

theorem settles : Settles encode decode :=
  ReadsBack.settles_of_obj readsBack encode_wholeSeconds fun met hboth hread =>
    read_again met hboth (hboth.field settles_str (·.resourceVersion)
      fun _ => by simp [encode, Json.member?_record_cons]) hread

end ObjectMeta

theorem PodTemplate.settles : Settles PodTemplate.encode PodTemplate.decode := by
  refine ReadsBack.settles_of_obj readsBack encode_wholeSeconds
    fun {changes x} met hboth hread => ?_
  unfold Json.decodeAs decode at hread ⊢
  rw [members_under, ok_bind] at hread ⊢
  simp only [bind_eq_ok] at hread
  obtain ⟨metadata, hmetadata, spec, hspec, hx⟩ := hread
  obtain rfl := Except.ok.inj hx
  rw [hboth.field ObjectMeta.settles (·.metadata)
      (fun _ => by simp [encode, Json.member?_record_cons]) hmetadata, ok_bind,
    hboth.field PodSpec.settles (·.spec)
      (fun _ => by simp [encode, Json.member?_record_cons]) hspec, ok_bind]
  rfl

theorem DeploymentSpec.settles : Settles DeploymentSpec.encode DeploymentSpec.decode := by
  refine ReadsBack.settles_of_obj readsBack encode_wholeSeconds
    fun {changes x} met hboth hread => ?_
  unfold Json.decodeAs decode at hread ⊢
  rw [members_under, ok_bind] at hread ⊢
  simp only [bind_eq_ok] at hread
  obtain ⟨minReadySeconds, hminReadySeconds, paused, hpaused, progressDeadlineSeconds,
    hprogressDeadlineSeconds, replicas, hreplicas, revisionHistoryLimit, hrevisionHistoryLimit,
    selector, hselector, strategy, hstrategy, template, htemplate, hx⟩ := hread
  obtain rfl := Except.ok.inj hx
  -- Selector and template are written even when the patch has removed them.
  obtain ⟨selectorFound, hselectorFound, hselectorSame⟩ := hboth.writtenField LabelSelector.settles
    (·.selector) (fun _ => by simp [encode, Json.member?_record_cons]) rfl rfl hselector
  obtain ⟨templateFound, htemplateFound, htemplateSame⟩ := hboth.writtenField PodTemplate.settles
    (·.template) (fun _ => by simp [encode, Json.member?_record_cons]) rfl rfl htemplate
  rw [hboth.field settles_int32 (·.minReadySeconds)
      (fun _ => by simp [encode, Json.member?_record_cons]) hminReadySeconds, ok_bind,
    hboth.field settles_bool (·.paused)
      (fun _ => by simp [encode, Json.member?_record_cons]) hpaused, ok_bind,
    hboth.field settles_int32 (·.progressDeadlineSeconds)
      (fun _ => by simp [encode, Json.member?_record_cons]) hprogressDeadlineSeconds, ok_bind,
    hboth.field settles_int32 (·.replicas)
      (fun _ => by simp [encode, Json.member?_record_cons]) hreplicas, ok_bind,
    hboth.field settles_int32 (·.revisionHistoryLimit)
      (fun _ => by simp [encode, Json.member?_record_cons]) hrevisionHistoryLimit, ok_bind,
    hselectorFound, ok_bind,
    hboth.field DeploymentStrategy.settles (·.strategy)
      (fun _ => by simp [encode, Json.member?_record_cons]) hstrategy, ok_bind,
    htemplateFound, ok_bind, hselectorSame, htemplateSame]
  rfl

/-! ## Deployments -/

namespace ObjectMeta

/-- A patch that says nothing but null about the resource version removes the version or leaves
it. -/
theorem version_again {changes : Members} {first : Json} {x : ObjectMeta} {version : Option String}
    (hboth : MeetsBoth changes first (x.withVersion version).encode)
    (hstring : (get? changes "resourceVersion").bind Json.asString? = none)
    (hread : (fieldsUnder changes first).lastOptionalField "resourceVersion" .string =
      .ok x.resourceVersion) :
    (fieldsUnder changes (x.withVersion version).encode).lastOptionalField "resourceVersion"
        .string = .ok (if (get? changes "resourceVersion").isNone then version else none) := by
  have hwritten : (x.withVersion version).encode.member? "resourceVersion" = version.map .str := by
    simp [withVersion, encode, Json.member?_record_cons]
  rw [lastOptionalField_fieldsUnder hboth.patch hboth.first] at hread
  rw [lastOptionalField_fieldsUnder hboth.patch hboth.second, hwritten]
  cases hchange : get? changes "resourceVersion" with
  | none => cases version <;> rfl
  | some value =>
      rw [hchange] at hread hstring
      cases value with
      | null => rfl
      | str text => cases hstring
      | obj members =>
          rw [become_some rfl, apply_obj] at hread
          cases hread
      | _ =>
          rw [become_some rfl, apply_of_not_isObject rfl] at hread
          cases hread

/-- Without a patch, metadata that was read is read again under any resource version. -/
theorem unpatched_again {metadata given : ObjectMeta}
    (hread : metadata.encode.decodeAs decode = .ok given) (version : Option String) :
    (given.withVersion version).encode.decodeAs decode = .ok (given.withVersion version) := by
  by_cases h : metadata.InCalendar
  · rw [readsBack.ok h] at hread
    obtain rfl := Except.ok.inj hread
    change (metadata.withVersion version).wholeSeconds.encode.decodeAs decode = _
    rw [encode_wholeSeconds]
    exact readsBack.ok h
  · rw [readsBack.error h] at hread
    cases hread

end ObjectMeta

namespace Deployment

/-- The metadata that a patch leads to is read again under any resource version, unless the patch
gives a version itself. -/
theorem metadata_again {changes : Members} {current record : Deployment}
    {metadata : Option ObjectMeta} {version : Option String}
    (hboth : MeetsBoth changes current.encode record.encode)
    (hstring : ((get? changes "metadata").bind (·.member? "resourceVersion")).bind Json.asString? =
      none)
    (hrecord : record.metadata = (metadata.getD {}).withVersion version)
    (hread : (fieldsUnder changes current.encode).lastOptionalField "metadata" ObjectMeta.decode =
      .ok metadata) :
    ∃ found again, (fieldsUnder changes record.encode).lastOptionalField "metadata"
        ObjectMeta.decode = .ok again ∧
      again.getD {} = (metadata.getD {}).withVersion found := by
  rw [lastOptionalField_fieldsUnder hboth.patch hboth.first, Json.member?, current.get?_metadata]
    at hread
  rw [lastOptionalField_fieldsUnder hboth.patch hboth.second, Json.member?, record.get?_metadata,
    hrecord]
  cases hchange : get? changes "metadata" with
  | none =>
      rw [hchange] at hread
      obtain ⟨given, rfl, hgiven⟩ :=
        exists_of_readField current.metadata.plain_encode.isNull_eq_false hread
      refine ⟨version, some (given.withVersion version), ?_, rfl⟩
      change readField _ (some (given.withVersion version).encode) = _
      rw [readField_some (ObjectMeta.plain_encode _).isNull_eq_false,
        ObjectMeta.unpatched_again hgiven version]
      rfl
  | some value =>
      rw [hchange] at hread hstring
      cases hnull : value.isNull with
      | true =>
          rw [become, if_pos hnull] at hread ⊢
          obtain rfl := Except.ok.inj hread
          exact ⟨none, none, rfl, rfl⟩
      | false =>
          rw [become_some hnull] at hread ⊢
          obtain ⟨given, rfl, hgiven⟩ := exists_of_readField (isNull_apply hnull _) hread
          rw [readField_some (isNull_apply hnull _)]
          cases value with
          | obj inner =>
              have hinner : MeetsBoth inner
                  (((some current.metadata).map ObjectMeta.encode).getD .null)
                  (given.withVersion version).encode :=
                ⟨hboth.patch.member? hchange, current.metadata.ordered_encode,
                  ObjectMeta.ordered_encode _⟩
              rw [apply_obj] at hgiven
              have hagain := ObjectMeta.read_again (some current.metadata) hinner
                (ObjectMeta.version_again hinner hstring) hgiven
              refine ⟨if (get? inner "resourceVersion").isNone then version else none,
                some (given.withVersion _), ?_, rfl⟩
              rw [Option.getD_some, Option.getD_some, apply_obj, hagain]
              rfl
          | _ =>
              rw [apply_of_not_isObject rfl] at hgiven ⊢
              exact ⟨given.resourceVersion, some given, by rw [hgiven]; rfl, rfl⟩

/-- Where a patch that is an object asks for a version. -/
theorem version?_obj (changes : Members) :
    MergePatch.version? (.obj changes) =
      ((get? changes "metadata").bind (·.member? "resourceVersion")).bind Json.asString? := by
  unfold MergePatch.version?
  rw [lookup_cons, Json.member?_obj]
  cases get? changes "metadata" with
  | none => rfl
  | some metadata =>
      rw [Option.bind_some, Option.bind_some, lookup_cons]
      cases metadata.member? "resourceVersion" with
      | none => rfl
      | some version => rw [Option.bind_some, lookup_nil]

/-- A field that is written alike is found alike under a patch. -/
theorem lastField_again {changes : Members} {first second : Json} {α : Type} {decode : Decoder α}
    {x : Option α} (hboth : MeetsBoth changes first second) {name : String}
    (hsame : first.member? name = second.member? name)
    (hread : (fieldsUnder changes first).lastField name decode = .ok x) :
    (fieldsUnder changes second).lastField name decode = .ok x := by
  rw [← hread]
  unfold Fields.lastField fieldsUnder
  rw [under_fieldsOf (ordered_applyMembers _ hboth.first),
    under_fieldsOf (ordered_applyMembers _ hboth.second),
    get?_applyMembers_eq_become hboth.patch.ordered,
    get?_applyMembers_eq_become hboth.patch.ordered, ← Json.member?, ← hsame, Json.member?]

/-- What a patch makes of a Deployment it makes again of what it made, under any resource version,
unless it gives a version itself. -/
theorem merge_again {patch : Json} (hpatch : patch.WellFormed)
    (hversion : MergePatch.version? patch = none) {current merged : Deployment}
    (hmerged : current.merge patch = .ok merged) (version : Option String) :
    ∃ found, (merged.withVersion version).merge patch = .ok (merged.withVersion found) := by
  unfold merge at hmerged ⊢
  cases patch with
  | obj changes =>
      have hboth : MeetsBoth changes (((some current).map encode).getD .null)
          (merged.withVersion version).encode :=
        ⟨hpatch, current.ordered_encode, ordered_encode _⟩
      have hstring : ((get? changes "metadata").bind (·.member? "resourceVersion")).bind
          Json.asString? = none := by
        rw [← hversion, version?_obj]
      rw [apply_obj] at hmerged ⊢
      unfold Json.decodeAs decode at hmerged ⊢
      rw [members_under, ok_bind] at hmerged ⊢
      simp only [bind_eq_ok] at hmerged
      obtain ⟨_, hapiVersion, _, hkind, metadata, hmetadata, spec, hspec, status, hstatus, hx⟩ :=
        hmerged
      obtain rfl := Except.ok.inj hx
      obtain ⟨found, again, hagain, hsame⟩ := metadata_again hboth hstring rfl hmetadata
      refine ⟨found, ?_⟩
      have hapiVersion := lastField_again hboth (by simp [encode, Json.member?_record_cons])
        hapiVersion
      have hkind := lastField_again hboth (by simp [encode, Json.member?_record_cons]) hkind
      have hspec := hboth.field DeploymentSpec.settles (·.spec)
        (fun _ => by simp [encode, Json.member?_record_cons]) hspec
      have hstatus := hboth.field DeploymentStatus.settles (·.status)
        (fun _ => by simp [encode, Json.member?_record_cons]) hstatus
      rw [hapiVersion, ok_bind, hkind, ok_bind, hagain, ok_bind, hspec, ok_bind, hstatus, ok_bind,
        hsame]
      rfl
  | _ =>
      rw [apply_of_not_isObject rfl] at hmerged ⊢
      exact ⟨merged.metadata.resourceVersion, hmerged⟩

end Deployment

end ReplicaKeeper
