import ReplicaKeeper.Object.Deployment
import ReplicaKeeper.Proofs.Decode.ReadsBack

/-!
# Objects are read back

A Deployment that is written and read again is the one it was, with whole seconds in its times:
`Deployment.readsBack`.  Nothing else is lost on the way, and the second reading changes nothing any
more.
-/

set_option autoImplicit false

namespace ReplicaKeeper

theorem Time.readsBack : ReadsBack Time.encode Decoder.time InCalendar wholeSecond where
  plain _ := trivial
  ok h := by
    simp only [Json.decodeAs, encode, Json.document, Decoder.time, parse_text, if_pos h]
  error h := by
    simp only [Json.decodeAs, encode, Json.document, Decoder.time, parse_text, if_neg h]

/-! ## Metadata -/

theorem Labels.readsBack : ReadsBackAll Labels.encode Labels.decode := by
  refine .of_ok (fun labels => ?_) fun labels => ?_
  · refine ⟨?_, (Json.plainMembers_iff _).2 fun member hmember => ?_⟩
    · exact List.pairwise_map.2 labels.ordered
    · obtain ⟨entry, -, rfl⟩ := List.mem_map.1 hmember
      exact plain_str entry.2
  · have hmembers : Decoder.members "a map" labels.encode.document =
        .ok (labels.entries.map fun entry => (entry.1, .str entry.2)) := by
      change (Json.namedDocuments _).mapM Decoder.named = _
      rw [mapM_named, List.map_map]
      rfl
    have hpairs : (labels.entries.map fun entry => (entry.1, Document.str entry.2)).mapM
        (fun member => (Decoder.string member.2).bind fun text => .ok (member.1, text)) =
          .ok labels.entries :=
      mapM_eq_ok labels.entries fun _ => rfl
    unfold Json.decodeAs decode
    rw [hmembers, ok_bind]
    refine Eq.trans (congrArg (· >>= _) hpairs) ?_
    exact congrArg Except.ok labels.ofPairs_entries

theorem OwnerReference.readsBack : ReadsBackAll encode decode := by
  refine .of_ok (fun owner => ?_) fun owner => ?_
  · refine Json.plain_record ?_ ?_
    · simp only [List.map_cons, List.map_nil]
      decide
    · simp [Json.plainField_map]
  · unfold Json.decodeAs decode encode
    rw [members_record]
    rw [ok_bind, readsBack_str.lastOptionalField (some owner.apiVersion) (by simp), ok_bind,
      readsBack_bool.lastOptionalField owner.blockOwnerDeletion (by simp), ok_bind,
      readsBack_bool.lastOptionalField owner.controller (by simp), ok_bind,
      readsBack_str.lastOptionalField (some owner.kind) (by simp), ok_bind,
      readsBack_str.lastOptionalField (some owner.name) (by simp), ok_bind,
      readsBack_str.lastOptionalField (some owner.uid) (by simp), ok_bind]
    rfl

namespace ObjectMeta

/-- Both times can be written. -/
def InCalendar (metadata : ObjectMeta) : Prop :=
  (∀ time, metadata.creationTimestamp = some time → time.InCalendar) ∧
    ∀ time, metadata.deletionTimestamp = some time → time.InCalendar

instance (metadata : ObjectMeta) : Decidable metadata.InCalendar :=
  inferInstanceAs (Decidable ((∀ time ∈ metadata.creationTimestamp, time.InCalendar) ∧
    ∀ time ∈ metadata.deletionTimestamp, time.InCalendar))

/-- The metadata without the fractions of seconds. -/
def wholeSeconds (metadata : ObjectMeta) : ObjectMeta :=
  { metadata with
    creationTimestamp := metadata.creationTimestamp.map Time.wholeSecond
    deletionTimestamp := metadata.deletionTimestamp.map Time.wholeSecond }

theorem plain_encode (metadata : ObjectMeta) : metadata.encode.Plain := by
  refine Json.plain_record ?_ ?_
  · simp only [List.map_cons, List.map_nil]
    decide
  · simp [Json.plainField_map, Labels.readsBack.plain, Time.readsBack.plain,
      OwnerReference.readsBack.list.plain, readsBack_str.list.plain]

theorem readsBack : ReadsBack encode decode InCalendar wholeSeconds where
  plain := plain_encode
  ok {metadata} h := by
    unfold Json.decodeAs decode encode
    rw [members_record]
    rw [ok_bind, Labels.readsBack.lastOptionalField metadata.annotations (by simp), ok_bind,
      (Time.readsBack.lastOptionalField metadata.creationTimestamp (by simp)).1 h.1, ok_bind,
      readsBack_int64.lastOptionalField metadata.deletionGracePeriodSeconds (by simp), ok_bind,
      (Time.readsBack.lastOptionalField metadata.deletionTimestamp (by simp)).1 h.2, ok_bind,
      readsBack_str.list.lastOptionalField metadata.finalizers (by simp), ok_bind,
      readsBack_str.lastOptionalField metadata.generateName (by simp), ok_bind,
      readsBack_int64.lastOptionalField metadata.generation (by simp), ok_bind,
      Labels.readsBack.lastOptionalField metadata.labels (by simp), ok_bind,
      readsBack_str.lastOptionalField metadata.name (by simp), ok_bind,
      readsBack_str.lastOptionalField metadata.ns (by simp), ok_bind,
      OwnerReference.readsBack.list.lastOptionalField metadata.ownerReferences (by simp), ok_bind,
      readsBack_str.lastOptionalField metadata.resourceVersion (by simp), ok_bind,
      readsBack_str.lastOptionalField metadata.uid (by simp), ok_bind]
    rfl
  error {metadata} h := by
    unfold Json.decodeAs decode encode
    rw [members_record]
    rw [ok_bind, Labels.readsBack.lastOptionalField metadata.annotations (by simp), ok_bind]
    by_cases hcreation : ∀ time, metadata.creationTimestamp = some time → time.InCalendar
    · have hdeletion : ¬ ∀ time, metadata.deletionTimestamp = some time → time.InCalendar :=
        fun hdeletion => h ⟨hcreation, hdeletion⟩
      rw [(Time.readsBack.lastOptionalField metadata.creationTimestamp (by simp)).1 hcreation,
        ok_bind, readsBack_int64.lastOptionalField metadata.deletionGracePeriodSeconds (by simp),
        ok_bind,
        (Time.readsBack.lastOptionalField metadata.deletionTimestamp (by simp)).2 hdeletion,
        error_bind]
    · rw [(Time.readsBack.lastOptionalField metadata.creationTimestamp (by simp)).2 hcreation,
        error_bind]

theorem encode_wholeSeconds (metadata : ObjectMeta) :
    metadata.wholeSeconds.encode = metadata.encode := by
  have htime (time : Option Time) :
      (time.map Time.wholeSecond).map Time.encode = time.map Time.encode := by
    cases time with
    | none => rfl
    | some time => exact congrArg (fun text => some (Json.str text)) time.text_wholeSecond
  simp only [encode, wholeSeconds, htime]

end ObjectMeta

/-! ## Deployments -/

theorem Container.readsBack : ReadsBackAll encode decode := by
  refine .of_ok (fun container => ?_) fun container => ?_
  · refine Json.plain_record ?_ ?_
    · simp only [List.map_cons, List.map_nil]
      decide
    · simp [Json.plainField_map]
  · unfold Json.decodeAs decode encode
    rw [members_record]
    rw [ok_bind, readsBack_str.lastOptionalField container.image (by simp), ok_bind,
      readsBack_str.lastOptionalField (some container.name) (by simp), ok_bind]
    rfl

theorem PodSpec.readsBack : ReadsBackAll encode decode := by
  refine .of_ok (fun spec => ?_) fun spec => ?_
  · refine Json.plain_record (List.pairwise_singleton _ _) ?_
    simpa using Container.readsBack.list.plain spec.containers
  · unfold Json.decodeAs decode encode
    rw [members_record]
    rw [ok_bind, Container.readsBack.list.lastOptionalField (some spec.containers) (by simp),
      ok_bind]
    rfl

theorem PodAmount.readsBack : ReadsBackAll encode decode := by
  refine .of_ok (fun amount => ?_) fun amount => ?_
  · cases amount <;> exact trivial
  · cases amount with
    | text s => rfl
    | count n =>
        have hbounds : Int32.minValue.toInt ≤ n.toInt ∧ n.toInt ≤ Int32.maxValue.toInt :=
          ⟨n.minValue_le_toInt, n.toInt_le⟩
        change (Decoder.integer _ _ _ (.int n.toInt)).map _ = _
        rw [Decoder.integer, if_pos hbounds]
        exact congrArg (Except.ok ∘ PodAmount.count) n.ofInt_toInt

theorem RollingUpdate.readsBack : ReadsBackAll encode decode := by
  refine .of_ok (fun update => ?_) fun update => ?_
  · refine Json.plain_record ?_ ?_
    · simp only [List.map_cons, List.map_nil]
      decide
    · simp [Json.plainField_map, PodAmount.readsBack.plain]
  · unfold Json.decodeAs decode encode
    rw [members_record]
    rw [ok_bind, PodAmount.readsBack.lastOptionalField update.maxSurge (by simp), ok_bind,
      PodAmount.readsBack.lastOptionalField update.maxUnavailable (by simp), ok_bind]
    rfl

theorem DeploymentStrategy.readsBack : ReadsBackAll encode decode := by
  refine .of_ok (fun strategy => ?_) fun strategy => ?_
  · refine Json.plain_record ?_ ?_
    · simp only [List.map_cons, List.map_nil]
      decide
    · simp [Json.plainField_map, RollingUpdate.readsBack.plain]
  · unfold Json.decodeAs decode encode
    rw [members_record]
    rw [ok_bind, RollingUpdate.readsBack.lastOptionalField strategy.rollingUpdate (by simp),
      ok_bind, readsBack_str.lastOptionalField strategy.type (by simp), ok_bind]
    rfl

theorem LabelSelector.readsBack : ReadsBackAll encode decode := by
  refine .of_ok (fun selector => ?_) fun selector => ?_
  · refine Json.plain_record (List.pairwise_singleton _ _) ?_
    simp [Json.plainField_map, Labels.readsBack.plain]
  · unfold Json.decodeAs decode encode
    rw [members_record]
    rw [ok_bind, Labels.readsBack.lastOptionalField selector.matchLabels (by simp), ok_bind]
    rfl

theorem DeploymentStatus.readsBack : ReadsBackAll encode decode := by
  refine .of_ok (fun status => ?_) fun status => ?_
  · refine Json.plain_record ?_ ?_
    · simp only [List.map_cons, List.map_nil]
      decide
    · simp [Json.plainField_map]
  · unfold Json.decodeAs decode encode
    rw [members_record]
    rw [ok_bind, readsBack_int64.lastOptionalField status.observedGeneration (by simp), ok_bind,
      readsBack_int32.lastOptionalField status.readyReplicas (by simp), ok_bind,
      readsBack_int32.lastOptionalField status.replicas (by simp), ok_bind]
    rfl

namespace PodTemplate

/-- The times of the pods can be written. -/
def InCalendar (template : PodTemplate) : Prop :=
  ∀ metadata, template.metadata = some metadata → metadata.InCalendar

instance (template : PodTemplate) : Decidable template.InCalendar :=
  inferInstanceAs (Decidable (∀ metadata ∈ template.metadata, metadata.InCalendar))

/-- The template without the fractions of seconds. -/
def wholeSeconds (template : PodTemplate) : PodTemplate :=
  { template with metadata := template.metadata.map ObjectMeta.wholeSeconds }

theorem readsBack : ReadsBack encode decode InCalendar wholeSeconds where
  plain template := by
    refine Json.plain_record ?_ ?_
    · simp only [List.map_cons, List.map_nil]
      decide
    · simp [Json.plainField_map, ObjectMeta.plain_encode, PodSpec.readsBack.plain]
  ok {template} h := by
    unfold Json.decodeAs decode encode
    rw [members_record]
    rw [ok_bind, (ObjectMeta.readsBack.lastOptionalField template.metadata (by simp)).1 h, ok_bind,
      PodSpec.readsBack.lastOptionalField template.spec (by simp), ok_bind]
    rfl
  error {template} h := by
    unfold Json.decodeAs decode encode
    rw [members_record]
    rw [ok_bind, (ObjectMeta.readsBack.lastOptionalField template.metadata (by simp)).2 h,
      error_bind]

theorem encode_wholeSeconds (template : PodTemplate) :
    template.wholeSeconds.encode = template.encode := by
  unfold encode wholeSeconds
  cases template.metadata with
  | none => rfl
  | some metadata => simp only [Option.map_some, metadata.encode_wholeSeconds]

end PodTemplate

namespace DeploymentSpec

/-- The times of the pods can be written. -/
def InCalendar (spec : DeploymentSpec) : Prop := spec.template.InCalendar

instance (spec : DeploymentSpec) : Decidable spec.InCalendar :=
  inferInstanceAs (Decidable spec.template.InCalendar)

/-- The specification without the fractions of seconds. -/
def wholeSeconds (spec : DeploymentSpec) : DeploymentSpec :=
  { spec with template := spec.template.wholeSeconds }

theorem readsBack : ReadsBack encode decode InCalendar wholeSeconds where
  plain spec := by
    refine Json.plain_record ?_ ?_
    · simp only [List.map_cons, List.map_nil]
      decide
    · simp [Json.plainField_map, LabelSelector.readsBack.plain, DeploymentStrategy.readsBack.plain,
        PodTemplate.readsBack.plain]
  ok {spec} h := by
    have htemplate : ∀ given, some spec.template = some given → given.InCalendar := by
      rintro given ⟨⟩
      exact h
    unfold Json.decodeAs decode encode
    rw [members_record]
    rw [ok_bind, readsBack_int32.lastOptionalField spec.minReadySeconds (by simp), ok_bind,
      readsBack_bool.lastOptionalField spec.paused (by simp), ok_bind,
      readsBack_int32.lastOptionalField spec.progressDeadlineSeconds (by simp), ok_bind,
      readsBack_int32.lastOptionalField spec.replicas (by simp), ok_bind,
      readsBack_int32.lastOptionalField spec.revisionHistoryLimit (by simp), ok_bind,
      LabelSelector.readsBack.lastOptionalField (some spec.selector) (by simp), ok_bind,
      DeploymentStrategy.readsBack.lastOptionalField spec.strategy (by simp), ok_bind,
      (PodTemplate.readsBack.lastOptionalField (some spec.template) (by simp)).1 htemplate,
      ok_bind]
    rfl
  error {spec} h := by
    have htemplate : ¬ ∀ given, some spec.template = some given → given.InCalendar :=
      fun hfits => h (hfits _ rfl)
    unfold Json.decodeAs decode encode
    rw [members_record]
    rw [ok_bind, readsBack_int32.lastOptionalField spec.minReadySeconds (by simp), ok_bind,
      readsBack_bool.lastOptionalField spec.paused (by simp), ok_bind,
      readsBack_int32.lastOptionalField spec.progressDeadlineSeconds (by simp), ok_bind,
      readsBack_int32.lastOptionalField spec.replicas (by simp), ok_bind,
      readsBack_int32.lastOptionalField spec.revisionHistoryLimit (by simp), ok_bind,
      LabelSelector.readsBack.lastOptionalField (some spec.selector) (by simp), ok_bind,
      DeploymentStrategy.readsBack.lastOptionalField spec.strategy (by simp), ok_bind,
      (PodTemplate.readsBack.lastOptionalField (some spec.template) (by simp)).2 htemplate,
      error_bind]

theorem encode_wholeSeconds (spec : DeploymentSpec) : spec.wholeSeconds.encode = spec.encode := by
  simp only [encode, wholeSeconds, spec.template.encode_wholeSeconds]

end DeploymentSpec

namespace Deployment

/-- All times can be written. -/
def InCalendar (deployment : Deployment) : Prop :=
  deployment.metadata.InCalendar ∧
    ∀ spec, deployment.spec = some spec → spec.InCalendar

instance (deployment : Deployment) : Decidable deployment.InCalendar :=
  inferInstanceAs (Decidable (deployment.metadata.InCalendar ∧
    ∀ spec ∈ deployment.spec, spec.InCalendar))

/-- The Deployment without the fractions of seconds. -/
def wholeSeconds (deployment : Deployment) : Deployment :=
  { deployment with
    metadata := deployment.metadata.wholeSeconds
    spec := deployment.spec.map DeploymentSpec.wholeSeconds }

/-- The Deployment under another resource version. -/
def withVersion (version : Option String) (deployment : Deployment) : Deployment :=
  { deployment with metadata := { deployment.metadata with resourceVersion := version } }

/-- Two Deployments are written alike, apart from the resource version. -/
def SameButVersion (left right : Deployment) : Prop :=
  (left.withVersion none).encode = (right.withVersion none).encode

@[simp] theorem wholeSeconds_withVersion (version : Option String) (deployment : Deployment) :
    (deployment.withVersion version).wholeSeconds = deployment.wholeSeconds.withVersion version :=
  rfl

@[simp] theorem inCalendar_withVersion (version : Option String) (deployment : Deployment) :
    (deployment.withVersion version).InCalendar ↔ deployment.InCalendar := Iff.rfl

/-- A fixed text is read back. -/
theorem lastField_fixedText {fields : Fields} {name text : String}
    (hunder : fields.under name = [.str text]) :
    fields.lastField name (fixedText text) = .ok (some ()) := by
  have hread : fixedText text (.str text) = .ok () := by
    change (if text = text then _ else _) = _
    rw [if_pos rfl]
  unfold Fields.lastField
  rw [hunder, List.mapM_cons, hread]
  rfl

theorem plain_encode (deployment : Deployment) : deployment.encode.Plain := by
  refine Json.plain_record ?_ ?_
  · simp only [List.map_cons, List.map_nil]
    decide
  · simp [Json.plainField_map, ObjectMeta.plain_encode, DeploymentSpec.readsBack.plain,
      DeploymentStatus.readsBack.plain]

/-- A Deployment is read back without the fractions of seconds, unless one of its times lies outside
the calendar. -/
theorem readsBack : ReadsBack encode decode InCalendar wholeSeconds where
  plain := plain_encode
  ok {deployment} h := by
    have hmetadata : ∀ given, some deployment.metadata = some given → given.InCalendar := by
      rintro given ⟨⟩
      exact h.1
    unfold Json.decodeAs decode encode
    rw [members_record]
    rw [ok_bind, lastField_fixedText (by simp; rfl), ok_bind, lastField_fixedText (by simp; rfl),
      ok_bind,
      (ObjectMeta.readsBack.lastOptionalField (some deployment.metadata) (by simp)).1 hmetadata,
      ok_bind, (DeploymentSpec.readsBack.lastOptionalField deployment.spec (by simp)).1 h.2,
      ok_bind, DeploymentStatus.readsBack.lastOptionalField deployment.status (by simp), ok_bind]
    rfl
  error {deployment} h := by
    unfold Json.decodeAs decode encode
    rw [members_record]
    rw [ok_bind, lastField_fixedText (by simp; rfl), ok_bind, lastField_fixedText (by simp; rfl),
      ok_bind]
    by_cases hmetadata : ∀ given, some deployment.metadata = some given → given.InCalendar
    · have hspec : ¬ ∀ spec, deployment.spec = some spec → spec.InCalendar :=
        fun hspec => h ⟨hmetadata _ rfl, hspec⟩
      rw [(ObjectMeta.readsBack.lastOptionalField (some deployment.metadata) (by simp)).1 hmetadata,
        ok_bind, (DeploymentSpec.readsBack.lastOptionalField deployment.spec (by simp)).2 hspec,
        error_bind]
    · rw [(ObjectMeta.readsBack.lastOptionalField (some deployment.metadata) (by simp)).2 hmetadata,
        error_bind]

/-- Fractions of seconds are not written. -/
@[simp] theorem encode_wholeSeconds (deployment : Deployment) :
    deployment.wholeSeconds.encode = deployment.encode := by
  unfold encode wholeSeconds
  cases deployment.spec with
  | none => simp only [deployment.metadata.encode_wholeSeconds, Option.map_none]
  | some spec =>
      simp only [deployment.metadata.encode_wholeSeconds, Option.map_some, spec.encode_wholeSeconds]

/-- What was read back under any version is written as before. -/
theorem sameButVersion_wholeSeconds (version : Option String) (deployment : Deployment) :
    (deployment.wholeSeconds.withVersion version).SameButVersion deployment :=
  (deployment.withVersion none).encode_wholeSeconds

/-- A Deployment whose times can be written is read back once more as what it was read as. -/
theorem InCalendar.wholeSeconds {deployment : Deployment} (h : deployment.InCalendar) :
    deployment.wholeSeconds.InCalendar ∧
      deployment.wholeSeconds.wholeSeconds = deployment.wholeSeconds := by
  have hread := readsBack.ok h
  rw [← encode_wholeSeconds] at hread
  by_cases hagain : deployment.wholeSeconds.InCalendar
  · rw [readsBack.ok hagain] at hread
    exact ⟨hagain, Except.ok.inj hread⟩
  · rw [readsBack.error hagain] at hread
    cases hread

end Deployment

end ReplicaKeeper
