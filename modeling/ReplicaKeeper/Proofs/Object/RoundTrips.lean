import ReplicaKeeper.Proofs.Decode.RoundTrips
import ReplicaKeeper.Proofs.Object.Rereading
import ReplicaKeeper.Proofs.Object.Showing
import ReplicaKeeper.Proofs.Time.Reading

/-!
# Scalers and workloads are read again

Whatever a scaler or a workload is read from, it is what the document shows.  It is written as
something that shows the same object without the fractions of seconds, that is read as this object,
and that is written alike once more: `scalers_and_workloads_read_again`.  A field is left out in
writing only where its absence is read as the value that was left out; containers are kept as they
are, whatever they hold.
-/

set_option autoImplicit false

namespace ReplicaKeeper

/-! ## Moments and metadata -/

theorem Time.Readable.of_shown (document : Document) (time : Time)
    (h : Showing.time document time) : time.Readable := by
  obtain ⟨text, -, hparse⟩ := h
  exact .of_parse hparse

theorem Time.roundTrips : RoundTrips encode Decoder.time Readable truncate where
  wellFormed _ := trivial
  again h := (readsBack.ok h.1).trans (congrArg Except.ok (wholeSecond_eq_truncate h.2))
  written time := congrArg Json.str time.text_truncate

namespace ObjectMeta

/-- The metadata without the fractions of seconds. -/
def truncate (metadata : ObjectMeta) : ObjectMeta :=
  { metadata with
    creationTimestamp := metadata.creationTimestamp.map Time.truncate
    deletionTimestamp := metadata.deletionTimestamp.map Time.truncate }

/-- Metadata as they may be read. -/
structure Readable (metadata : ObjectMeta) : Prop where
  creation : Within Time.Readable metadata.creationTimestamp
  deletion : Within Time.Readable metadata.deletionTimestamp

theorem wholeSeconds_eq_truncate {metadata : ObjectMeta} (h : metadata.Readable) :
    metadata.wholeSeconds = metadata.truncate := by
  have htime {time : Option Time} (h : Within Time.Readable time) :
      time.map Time.wholeSecond = time.map Time.truncate := by
    cases time with
    | none => rfl
    | some time => exact congrArg some (Time.wholeSecond_eq_truncate (h time rfl).2)
  unfold wholeSeconds truncate
  rw [htime h.creation, htime h.deletion]

theorem encode_truncate (metadata : ObjectMeta) : metadata.truncate.encode = metadata.encode := by
  have htime (time : Option Time) :
      (time.map Time.truncate).map Time.encode = time.map Time.encode := by
    cases time with
    | none => rfl
    | some time => exact congrArg some (Time.roundTrips.written time)
  simp only [encode, truncate, htime]

theorem Readable.of_shown (document : Document) (metadata : ObjectMeta)
    (h : Shown document metadata) : metadata.Readable where
  creation := .of_shown Time.Readable.of_shown h.creationTimestamp
  deletion := .of_shown Time.Readable.of_shown h.deletionTimestamp

theorem roundTrips : RoundTrips encode decode Readable truncate where
  wellFormed {metadata} _ := metadata.plain_encode.wellFormed
  again h := by
    refine (readsBack.ok ⟨fun time htime => ?_, fun time htime => ?_⟩).trans ?_
    · exact (h.creation time htime).1
    · exact (h.deletion time htime).1
    · rw [wholeSeconds_eq_truncate h]
  written := encode_truncate

end ObjectMeta

/-! ## Specifications -/

theorem TypedReference.readsBack : ReadsBackAll encode decode := by
  refine .of_ok (fun reference => ?_) fun reference => ?_
  · refine Json.plain_record ?_ ?_
    · simp only [List.map_cons, List.map_nil]
      decide
    · simp [Json.plainField_map]
  · change (Decoder.members _ (encode reference).document >>= _) = _
    unfold encode
    rw [members_record, ok_bind, readsBack_str.optionalField reference.apiVersion (by simp),
      ok_bind, readsBack_str.optionalField reference.kind (by simp), ok_bind,
      readsBack_str.field (some reference.name) (by simp), ok_bind,
      readsBack_str.optionalField reference.uid (by simp), ok_bind]
    rfl

theorem ScalerSpec.readsBack : ReadsBackAll encode decode := by
  refine .of_ok (fun spec => ?_) fun spec => ?_
  · refine Json.plain_record ?_ ?_
    · simp only [List.map_cons, List.map_nil]
      decide
    · simp [TypedReference.readsBack.plain]
  · change (Decoder.members _ (encode spec).document >>= _) = _
    unfold encode
    rw [members_record, ok_bind, readsBack_int32.field (some spec.replicaCount) (by simp), ok_bind,
      TypedReference.readsBack.field (some spec.workloadRef) (by simp), ok_bind]
    rfl

theorem Json.WellFormed.of_shown (document : Document) (value : Json)
    (h : Showing.value document value) : value.WellFormed :=
  Document.wellFormed_of_toJson? h

/-- Any value is kept as it is. -/
theorem Json.roundTrips_value : RoundTrips id Decoder.value WellFormed id where
  wellFormed h := h
  again {value} h := by
    change Decoder.value value.document = _
    unfold Decoder.value
    rw [Document.toJson?_document h]
    rfl
  written _ := rfl

namespace WorkloadSpec

/-- A specification as it may be read. -/
def Readable (spec : WorkloadSpec) : Prop := ∀ container ∈ spec.containers, container.WellFormed

theorem Readable.of_shown (document : Document) (spec : WorkloadSpec) (h : Shown document spec) :
    spec.Readable :=
  h.containers.of_shown Json.WellFormed.of_shown

theorem roundTrips : RoundTrips encode decode Readable id where
  wellFormed {spec} h := by
    refine Json.wellFormed_record ?_ ?_
    · simp only [List.map_cons, List.map_nil]
      decide
    · have hcontainers : (Json.arr spec.containers).WellFormed :=
        (Json.wellFormedItems_iff _).2 h
      have hosType : Within Json.WellFormed (spec.osType.map .str) :=
        (Json.plainField_map plain_str spec.osType).wellFormed
      simp [hcontainers, hosType]
  again {spec} h := by
    have hcontainers : Within (fun containers => ∀ x ∈ containers, x.WellFormed)
        (some spec.containers) := within_some.2 h
    change (Decoder.members _ (encode spec).document >>= _) = _
    unfold encode
    rw [members_record, ok_bind,
      Json.roundTrips_value.list.field (some spec.containers) hcontainers (by simp), ok_bind,
      readsBack_str.optionalField spec.osType (by simp), ok_bind]
    simp
    rfl
  written _ := rfl

end WorkloadSpec

/-! ## Conditions -/

section Words

variable {α : Type} {words : List (String × α)} {text : α → String}

/-- A choice is written as its word. -/
theorem readsBack_choice (h : ∀ x, Decoder.meaning words (text x) = .ok x)
    (beside : Decoder.Beside) :
    ReadsBackAll (fun x => .str (text x)) (.choice words beside) :=
  .of_ok (fun _ => trivial) h

end Words

namespace Condition

theorem readsBack_type (beside : Decoder.Beside) :
    ReadsBackAll (fun type : ConditionType => .str type.text) (.choice types beside) :=
  readsBack_choice (fun type => by cases type; rfl) beside

theorem readsBack_status (beside : Decoder.Beside) :
    ReadsBackAll (fun status : ConditionStatus => .str status.text) (.choice statuses beside) :=
  readsBack_choice (fun status => by cases status <;> rfl) beside

theorem readsBack_reason (beside : Decoder.Beside) :
    ReadsBackAll (fun reason : ConditionReason => .str reason.text) (.choice reasons beside) :=
  readsBack_choice (fun reason => by cases reason <;> rfl) beside

/-- A condition as it may be read. -/
def Readable (condition : Condition) : Prop := condition.lastTransitionTime.Readable

/-- The condition without the fraction of a second. -/
def truncate (condition : Condition) : Condition :=
  { condition with lastTransitionTime := condition.lastTransitionTime.truncate }

theorem Readable.of_shown (document : Document) (condition : Condition)
    (h : Shown document condition) : condition.Readable :=
  h.lastTransitionTime.of_shown Time.Readable.of_shown

theorem wellFormed_encode (condition : Condition) : condition.encode.WellFormed := by
  refine Json.Plain.wellFormed (Json.plain_record ?_ ?_)
  · simp only [List.map_cons, List.map_nil]
    decide
  · have hmessage : Json.PlainField
        (if condition.message = "" then none else some (.str condition.message)) := by
      split <;> simp [Json.PlainField]
    simp [Time.readsBack.plain, hmessage]

/-- A message that is empty is left out. -/
theorem message_getD (message : String) :
    (if message.isEmpty then none else some message).getD "" = message := by
  split
  · next hempty => exact (String.isEmpty_iff.1 hempty).symm
  · rfl

theorem roundTrips (place : Place) : RoundTrips encode (decodeAt place) Readable truncate where
  wellFormed {condition} _ := condition.wellFormed_encode
  again {condition} h := by
    have htime : Within Time.Readable (some condition.lastTransitionTime) := within_some.2 h
    have hmessage :
        (if condition.message.isEmpty then none else some (Json.str condition.message)) =
          (if condition.message.isEmpty then none else some condition.message).map Json.str := by
      split <;> rfl
    change (Decoder.members _ (encode condition).document >>= _) = _
    unfold encode
    rw [hmessage, members_record, ok_bind,
      Time.roundTrips.field (some condition.lastTransitionTime) htime (by simp), ok_bind,
      readsBack_str.field (if condition.message.isEmpty then none else some condition.message)
        (by simp), ok_bind,
      (readsBack_reason place.beside).field (some condition.reason) (by simp), ok_bind,
      (readsBack_status place.beside).field (some condition.status) (by simp), ok_bind,
      (readsBack_type place.beside).field (some condition.type) (by simp), ok_bind]
    change Except.ok (Condition.mk _ _ _ _ _) = _
    rw [message_getD]
    rfl
  written condition := by
    have htime := Time.roundTrips.written condition.lastTransitionTime
    unfold encode truncate
    rw [htime]

end Condition

/-! ## Statuses -/

/-- The list that is written of some conditions, if it is written. -/
def ConditionedStatus.listed (conditions : List Condition) : Option (List Condition) :=
  if conditions.isEmpty then none else some conditions

namespace ConditionedStatus

theorem getD_listed (conditions : List Condition) : (listed conditions).getD [] = conditions := by
  unfold listed
  split
  · next hempty => exact (List.isEmpty_iff.1 hempty).symm
  · rfl

theorem conditionsField_eq (conditions : List Condition) :
    conditionsField conditions =
      ("conditions", (listed conditions).map fun conditions =>
        .arr (conditions.map Condition.encode)) := by
  unfold conditionsField listed
  split <;> rfl

theorem listed_map (f : Condition → Condition) (conditions : List Condition) :
    listed (conditions.map f) = (listed conditions).map (List.map f) := by
  unfold listed
  cases conditions <;> rfl

theorem within_listed {conditions : List Condition} {property : Condition → Prop}
    (h : ∀ condition ∈ conditions, property condition) :
    Within (fun conditions => ∀ condition ∈ conditions, property condition)
      (listed conditions) := by
  unfold listed
  split
  · rintro given ⟨⟩
  · exact within_some.2 h

/-- A status as it may be read. -/
def Readable (status : ConditionedStatus) : Prop :=
  ∀ condition ∈ status.conditions, condition.Readable

/-- The status without the fractions of seconds. -/
def truncate (status : ConditionedStatus) : ConditionedStatus :=
  ⟨status.conditions.map Condition.truncate⟩

theorem Readable.of_shown (document : Document) (status : ConditionedStatus)
    (h : Shown document status) : status.Readable :=
  h.conditions.of_shown Condition.Readable.of_shown

/-- The member of the conditions, as it is read again. -/
theorem field_conditions {fields : Fields} {conditions : List Condition}
    (h : ∀ condition ∈ conditions, condition.Readable)
    (hunder : fields.under "conditions" = (((listed conditions).map fun conditions =>
      .arr (conditions.map Condition.encode)).map Json.document).toList) :
    fields.field "conditions" (.list (Condition.decodeAt .inStatus)) =
      .ok ((listed conditions).map (List.map Condition.truncate)) :=
  (Condition.roundTrips .inStatus).list.field (listed conditions) (within_listed h) hunder

theorem wellFormed_conditions {conditions : List Condition}
    (h : ∀ condition ∈ conditions, condition.Readable) :
    Within Json.WellFormed
      ((listed conditions).map fun conditions => .arr (conditions.map Condition.encode)) :=
  (within_listed h).map fun _ hconditions =>
    (Condition.roundTrips .inStatus).list.wellFormed hconditions

theorem wellFormed_encode {status : ConditionedStatus} (h : status.Readable) :
    status.encode.WellFormed := by
  unfold encode
  rw [conditionsField_eq]
  refine Json.wellFormed_record (List.pairwise_singleton _ _) ?_
  simpa using wellFormed_conditions h

theorem roundTrips : RoundTrips encode Scaler.decodeStatus Readable truncate where
  wellFormed := wellFormed_encode
  again {status} h := by
    have hwellFormed : (encode status).WellFormed := wellFormed_encode h
    unfold Json.decodeAs Scaler.decodeStatus Decoder.readable
    rw [if_pos (Document.isReadable_document hwellFormed)]
    unfold encode
    dsimp only
    rw [conditionsField_eq, members_record, ok_bind, field_conditions h (by simp), ok_bind,
      ← listed_map, getD_listed]
    rfl
  written status := by
    have hlist := (Condition.roundTrips .inStatus).list.written status.conditions
    unfold encode truncate conditionsField
    dsimp only at hlist ⊢
    rw [hlist, List.isEmpty_map]

end ConditionedStatus

namespace WorkloadStatus

/-- A status as it may be read. -/
def Readable (status : WorkloadStatus) : Prop :=
  ∀ condition ∈ status.conditions, condition.Readable

/-- The status without the fractions of seconds. -/
def truncate (status : WorkloadStatus) : WorkloadStatus :=
  { status with conditions := status.conditions.map Condition.truncate }

theorem Readable.of_shown (document : Document) (status : WorkloadStatus)
    (h : Shown document status) : status.Readable :=
  h.conditions.of_shown Condition.Readable.of_shown

theorem wellFormed_encode {status : WorkloadStatus} (h : status.Readable) :
    status.encode.WellFormed := by
  unfold encode
  rw [ConditionedStatus.conditionsField_eq]
  refine Json.wellFormed_record ?_ ?_
  · simp only [List.map_cons, List.map_nil]
    decide
  · have hresources := (TypedReference.readsBack.list.plain status.resources).wellFormed
    simpa [hresources] using ConditionedStatus.wellFormed_conditions h

theorem roundTrips : RoundTrips encode decode Readable truncate where
  wellFormed := wellFormed_encode
  again {status} h := by
    have hwellFormed := wellFormed_encode h
    unfold encode at hwellFormed
    unfold Json.decodeAs decode encode
    rw [ConditionedStatus.conditionsField_eq] at hwellFormed ⊢
    rw [members_record, ok_bind,
      TypedReference.readsBack.list.field (some status.resources) (by simp), ok_bind,
      if_pos (List.all_eq_true.2 fun member hmember => ?_),
      ConditionedStatus.field_conditions h (by simp), ok_bind,
      ← ConditionedStatus.listed_map, ConditionedStatus.getD_listed]
    · rfl
    · rw [isReadable_of_mem_present hwellFormed hmember, Bool.or_true]
  written status := by
    have hlist := (Condition.roundTrips .inStatus).list.written status.conditions
    unfold encode truncate ConditionedStatus.conditionsField
    dsimp only at hlist ⊢
    rw [hlist, List.isEmpty_map]

end WorkloadStatus

/-! ## Scalers and workloads -/

namespace Scaler

/-- A scaler as it may be read. -/
structure Readable (scaler : Scaler) : Prop where
  metadata : scaler.metadata.Readable
  status : Within ConditionedStatus.Readable scaler.status

/-- The scaler without the fractions of seconds. -/
def truncate (scaler : Scaler) : Scaler :=
  { scaler with
    metadata := scaler.metadata.truncate
    status := scaler.status.map ConditionedStatus.truncate }

theorem Readable.of_shown (document : Document) (scaler : Scaler) (h : Shown document scaler) :
    scaler.Readable where
  metadata := h.metadata.of_shown ObjectMeta.Readable.of_shown
  status := .of_shown ConditionedStatus.Readable.of_shown h.status

theorem roundTrips : RoundTrips encode decode Readable truncate where
  wellFormed {scaler} h := by
    refine Json.wellFormed_record ?_ ?_
    · simp only [List.map_cons, List.map_nil]
      decide
    · have hmetadata := ObjectMeta.roundTrips.wellFormed h.metadata
      have hspec := (ScalerSpec.readsBack.plain scaler.spec).wellFormed
      have hstatus := h.status.map fun _ => ConditionedStatus.roundTrips.wellFormed
      simp [hmetadata, hspec, hstatus, (plain_str _).wellFormed]
  again {scaler} h := by
    have hmetadata : Within ObjectMeta.Readable (some scaler.metadata) := within_some.2 h.metadata
    change (Decoder.members _ (encode scaler).document >>= _) = _
    unfold encode
    rw [members_record, ok_bind,
      ObjectMeta.roundTrips.field (some scaler.metadata) hmetadata (by simp), ok_bind,
      ScalerSpec.readsBack.field (some scaler.spec) (by simp), ok_bind,
      ConditionedStatus.roundTrips.optionalField (fun _ => rfl) scaler.status h.status (by simp),
      ok_bind]
    rfl
  written scaler := by
    have hstatus := ConditionedStatus.roundTrips.written_map scaler.status
    unfold encode truncate
    rw [scaler.metadata.encode_truncate, hstatus]

end Scaler

namespace Workload

/-- A workload as it may be read. -/
structure Readable (workload : Workload) : Prop where
  metadata : workload.metadata.Readable
  spec : workload.spec.Readable
  status : Within WorkloadStatus.Readable workload.status

/-- The workload without the fractions of seconds. -/
def truncate (workload : Workload) : Workload :=
  { workload with
    metadata := workload.metadata.truncate
    status := workload.status.map WorkloadStatus.truncate }

theorem Readable.of_shown (document : Document) (workload : Workload)
    (h : Shown document workload) : workload.Readable where
  metadata := h.metadata.of_shown ObjectMeta.Readable.of_shown
  spec := h.spec.of_shown WorkloadSpec.Readable.of_shown
  status := .of_shown WorkloadStatus.Readable.of_shown h.status

theorem roundTrips : RoundTrips encode decode Readable truncate where
  wellFormed {workload} h := by
    refine Json.wellFormed_record ?_ ?_
    · simp only [List.map_cons, List.map_nil]
      decide
    · have hmetadata := ObjectMeta.roundTrips.wellFormed h.metadata
      have hspec := WorkloadSpec.roundTrips.wellFormed h.spec
      have hstatus := h.status.map fun _ => WorkloadStatus.roundTrips.wellFormed
      simp [hmetadata, hspec, hstatus, (plain_str _).wellFormed]
  again {workload} h := by
    have hmetadata : Within ObjectMeta.Readable (some workload.metadata) :=
      within_some.2 h.metadata
    have hspec : Within WorkloadSpec.Readable (some workload.spec) := within_some.2 h.spec
    change (Decoder.members _ (encode workload).document >>= _) = _
    unfold encode
    rw [members_record, ok_bind,
      ObjectMeta.roundTrips.field (some workload.metadata) hmetadata (by simp), ok_bind,
      WorkloadSpec.roundTrips.field (some workload.spec) hspec (by simp), ok_bind,
      WorkloadStatus.roundTrips.optionalField (fun _ => rfl) workload.status h.status (by simp),
      ok_bind]
    rfl
  written workload := by
    have hstatus := WorkloadStatus.roundTrips.written_map workload.status
    unfold encode truncate
    rw [workload.metadata.encode_truncate, hstatus]

end Workload

/-- What is decoded as a scaler or a workload is what the document shows, in all its parts.  Every
scaler and every workload that may be read is written as a value that shows it again and is decoded
as it was, but for fractions of seconds, and that is written alike from then on. -/
theorem scalers_and_workloads_read_again :
    Faithful Scaler.encode Scaler.decode Scaler.Shown Scaler.Readable Scaler.truncate ∧
      Faithful Workload.encode Workload.decode Workload.Shown Workload.Readable
        Workload.truncate :=
  ⟨Scaler.roundTrips.faithful Scaler.sound_decode Scaler.Readable.of_shown,
    Workload.roundTrips.faithful Workload.sound_decode Workload.Readable.of_shown⟩

/-- A scaler with a status, in the form of an object. -/
def sampleScalerDocument (status : Document) : Document :=
  .obj [(some "metadata", .obj [(some "name", .str "web"), (some "labels", .null)]),
    (some "spec", .obj [(some "workloadRef", .obj [(some "uid", .str "u1"),
        (some "name", .str "front"), (some "kind", .str "ContainerizedWorkload")]),
      (some "replicaCount", .int 3)]),
    (some "status", status)]

def sampleScaler (status : Option ConditionedStatus) : Scaler where
  metadata := { name := some "web" }
  spec := ⟨3, ⟨none, some "ContainerizedWorkload", "front", some "u1"⟩⟩
  status

/-- A status whose last transition has a fraction of a second. -/
def sampleStatusDocument : Document :=
  .obj [(some "conditions", .arr [.obj [(some "type", .str "Synced"),
    (some "status", .str "Success"), (some "reason", .obj [(some "ReconcileSuccess", .null)]),
    (some "lastTransitionTime", .str "2024-05-01T12:00:00.25+02:00")]])]

/-- What is written of the scaler with this status.  Absent fields are left out, and so is the
fraction of a second. -/
def sampleScalerWritten : Json :=
  .obj [("apiVersion", .str "core.oam.dev/v1alpha2"), ("kind", .str "ManualScalerTrait"),
    ("metadata", .obj [("name", .str "web")]),
    ("spec", .obj [("replicaCount", .int 3), ("workloadRef", .obj [
      ("kind", .str "ContainerizedWorkload"), ("name", .str "front"), ("uid", .str "u1")])]),
    ("status", .obj [("conditions", .arr [.obj [
      ("lastTransitionTime", .str "2024-05-01T10:00:00Z"), ("reason", .str "ReconcileSuccess"),
      ("status", .str "Success"), ("type", .str "Synced")]])])]

/-- A workload in the form of sequences, with containers that are no objects. -/
def sampleWorkloadDocument : Document :=
  .arr [.obj [(some "creationTimestamp", .str "2024-05-01 10:00:00.5Z")],
    .arr [.null, .arr [.null, .int 7]],
    .obj [(some "resources", .arr [.obj [(some "kind", .str "Deployment"),
      (some "name", .str "front")], .arr [.null, .null, .str "back"]])]]

def sampleWorkload (creation : Time) : Workload where
  metadata := { creationTimestamp := some creation }
  spec := ⟨none, [.null, .int 7]⟩
  status := some ⟨[], [⟨none, some "Deployment", "front", none⟩, ⟨none, none, "back", none⟩]⟩

theorem scalers_and_workloads_read_again_samples :
    (Scaler.decode (sampleScalerDocument sampleStatusDocument) =
          .ok (sampleScaler (some ⟨[.success ⟨1714557600, 250000000⟩]⟩)) ∧
        (sampleScaler (some ⟨[.success ⟨1714557600, 250000000⟩]⟩)).encode = sampleScalerWritten ∧
        sampleScalerWritten.decodeAs Scaler.decode =
          .ok (sampleScaler (some ⟨[.success ⟨1714557600, 0⟩]⟩))) ∧
      (Scaler.decode (sampleScalerDocument (.obj [])) = .ok (sampleScaler (some ⟨[]⟩)) ∧
        (sampleScaler (some ⟨[]⟩)).encode.decodeAs Scaler.decode =
          .ok (sampleScaler (some ⟨[]⟩))) ∧
      (Scaler.decode (sampleScalerDocument .null) = .ok (sampleScaler none) ∧
        (sampleScaler none).encode.decodeAs Scaler.decode = .ok (sampleScaler none)) ∧
      Workload.decode sampleWorkloadDocument = .ok (sampleWorkload ⟨1714557600, 500000000⟩) ∧
        (sampleWorkload ⟨1714557600, 500000000⟩).encode.decodeAs Workload.decode =
          .ok (sampleWorkload ⟨1714557600, 0⟩) := by
  obtain ⟨hscaler, hworkload⟩ := scalers_and_workloads_read_again
  have hfilled : Scaler.decode (sampleScalerDocument sampleStatusDocument) =
      .ok (sampleScaler (some ⟨[.success ⟨1714557600, 250000000⟩]⟩)) := by decide +kernel
  have hwritten : (sampleScaler (some ⟨[.success ⟨1714557600, 250000000⟩]⟩)).encode =
      sampleScalerWritten := by rfl
  have hempty : Scaler.decode (sampleScalerDocument (.obj [])) =
      .ok (sampleScaler (some ⟨[]⟩)) := by decide +kernel
  have hnull : Scaler.decode (sampleScalerDocument .null) = .ok (sampleScaler none) := by
    decide +kernel
  have hsample : Workload.decode sampleWorkloadDocument =
      .ok (sampleWorkload ⟨1714557600, 500000000⟩) := by rfl
  exact ⟨⟨hfilled, hwritten, hwritten ▸ hscaler.read_again hfilled⟩,
    ⟨hempty, hscaler.read_again hempty⟩, ⟨hnull, hscaler.read_again hnull⟩, hsample,
    hworkload.read_again hsample⟩

end ReplicaKeeper
