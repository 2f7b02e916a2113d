import Mathlib.Data.List.Induction
import ReplicaKeeper.Object.Workload
import ReplicaKeeper.Proofs.Decode.Showing

/-!
# What documents show of scalers and workloads

For each record, which part of a document shows which of its fields, and that its decoder is sound:
what is decoded as a scaler or a workload is what the document shows, `Scaler.sound_decode` and
`Workload.sound_decode`.
-/

set_option autoImplicit false

namespace ReplicaKeeper

/-! ## Metadata -/

/-- Each text under a name is that of the last member of the name. -/
def Labels.Shown : Showing Labels := fun document labels =>
  document.IsObject ∧ ∀ name, document.member? name = (labels.get? name).map .str

structure OwnerReference.Shown (document : Document) (owner : OwnerReference) : Prop where
  object : document.IsObject
  apiVersion :
    Showing.orElse .string "" (Document.given? (document.member? "apiVersion")) owner.apiVersion
  blockOwnerDeletion :
    Showing.optional .bool (document.member? "blockOwnerDeletion") owner.blockOwnerDeletion
  controller : Showing.optional .bool (document.member? "controller") owner.controller
  kind : Showing.orElse .string "" (Document.given? (document.member? "kind")) owner.kind
  name : Showing.orElse .string "" (Document.given? (document.member? "name")) owner.name
  uid : Showing.orElse .string "" (Document.given? (document.member? "uid")) owner.uid

structure ObjectMeta.Shown (document : Document) (metadata : ObjectMeta) : Prop where
  object : document.IsObject
  annotations :
    Showing.optional Labels.Shown (document.member? "annotations") metadata.annotations
  creationTimestamp :
    Showing.optional .time (document.member? "creationTimestamp") metadata.creationTimestamp
  deletionGracePeriodSeconds :
    Showing.optional .int64 (document.member? "deletionGracePeriodSeconds")
      metadata.deletionGracePeriodSeconds
  deletionTimestamp :
    Showing.optional .time (document.member? "deletionTimestamp") metadata.deletionTimestamp
  finalizers :
    Showing.optional (.list .string) (document.member? "finalizers") metadata.finalizers
  generateName : Showing.optional .string (document.member? "generateName") metadata.generateName
  generation : Showing.optional .int64 (document.member? "generation") metadata.generation
  labels : Showing.optional Labels.Shown (document.member? "labels") metadata.labels
  name : Showing.optional .string (document.member? "name") metadata.name
  ns : Showing.optional .string (document.member? "namespace") metadata.ns
  ownerReferences :
    Showing.optional (.list OwnerReference.Shown) (document.member? "ownerReferences")
      metadata.ownerReferences
  resourceVersion :
    Showing.optional .string (document.member? "resourceVersion") metadata.resourceVersion
  uid : Showing.optional .string (document.member? "uid") metadata.uid

namespace Labels

/-- Of pairs with one name the last one counts. -/
theorem get?_ofPairs (pairs : List (String × String)) (name : String) :
    (ofPairs pairs).get? name =
      ((pairs.filter fun pair => pair.1 = name).getLast?).map (·.2) := by
  induction pairs using List.reverseRecOn with
  | nil => rfl
  | append_singleton pairs pair ih =>
      have hlast : ofPairs (pairs ++ [pair]) = (ofPairs pairs).insert pair.1 pair.2 := by
        unfold ofPairs
        rw [List.foldl_append]
        rfl
      rw [hlast, get?_insert, List.filter_append]
      by_cases hname : pair.1 = name
      · simp [hname]
      · simp [hname, ih]

theorem sound_decode : Decoder.Sound decode Shown := by
  intro document labels h
  unfold decode at h
  simp only [bind_eq_ok] at h
  obtain ⟨members, hmembers, pairs, hpairs, h⟩ := h
  obtain rfl := Except.ok.inj h
  refine ⟨isObject_of_members hmembers, fun name => ?_⟩
  rw [member?_of_members hmembers, get?_ofPairs]
  have heq : members = pairs.map fun pair => (pair.1, .str pair.2) := by
    refine eq_map_of_mapM (fun member pair hpair => ?_) hpairs
    obtain ⟨text, htext, hpair⟩ := bind_eq_ok.1 hpair
    obtain rfl := Except.ok.inj hpair
    exact Prod.ext rfl (Decoder.sound_string _ _ htext)
  unfold Fields.under
  rw [heq, List.filter_map, List.map_map, List.getLast?_map, Option.map_map]
  rfl

end Labels

theorem OwnerReference.sound_decode : Decoder.Sound decode Shown := by
  intro document owner h
  unfold decode at h
  simp only [bind_eq_ok] at h
  obtain ⟨members, hmembers, apiVersion, hapiVersion, block, hblock, controller, hcontroller, kind,
    hkind, name, hname, uid, huid, h⟩ := h
  obtain rfl := Except.ok.inj h
  exact {
    object := isObject_of_members hmembers
    apiVersion := ⟨_, Decoder.sound_string.lastOptionalField hmembers hapiVersion, rfl⟩
    blockOwnerDeletion := Decoder.sound_bool.lastOptionalField hmembers hblock
    controller := Decoder.sound_bool.lastOptionalField hmembers hcontroller
    kind := ⟨_, Decoder.sound_string.lastOptionalField hmembers hkind, rfl⟩
    name := ⟨_, Decoder.sound_string.lastOptionalField hmembers hname, rfl⟩
    uid := ⟨_, Decoder.sound_string.lastOptionalField hmembers huid, rfl⟩ }

theorem ObjectMeta.sound_decode : Decoder.Sound decode Shown := by
  intro document metadata h
  unfold decode at h
  simp only [bind_eq_ok] at h
  obtain ⟨members, hmembers, annotations, hannotations, creation, hcreation, grace, hgrace,
    deletion, hdeletion, finalizers, hfinalizers, generateName, hgenerateName, generation,
    hgeneration, labels, hlabels, name, hname, ns, hns, owners, howners, version, hversion, uid,
    huid, h⟩ := h
  obtain rfl := Except.ok.inj h
  exact {
    object := isObject_of_members hmembers
    annotations := Labels.sound_decode.lastOptionalField hmembers hannotations
    creationTimestamp := Decoder.sound_time.lastOptionalField hmembers hcreation
    deletionGracePeriodSeconds := Decoder.sound_int64.lastOptionalField hmembers hgrace
    deletionTimestamp := Decoder.sound_time.lastOptionalField hmembers hdeletion
    finalizers := Decoder.sound_string.list.lastOptionalField hmembers hfinalizers
    generateName := Decoder.sound_string.lastOptionalField hmembers hgenerateName
    generation := Decoder.sound_int64.lastOptionalField hmembers hgeneration
    labels := Labels.sound_decode.lastOptionalField hmembers hlabels
    name := Decoder.sound_string.lastOptionalField hmembers hname
    ns := Decoder.sound_string.lastOptionalField hmembers hns
    ownerReferences := OwnerReference.sound_decode.list.lastOptionalField hmembers howners
    resourceVersion := Decoder.sound_string.lastOptionalField hmembers hversion
    uid := Decoder.sound_string.lastOptionalField hmembers huid }

/-! ## Specifications -/

structure TypedReference.Shown (document : Document) (reference : TypedReference) : Prop where
  apiVersion : Showing.optional .string (document.part? 0 "apiVersion") reference.apiVersion
  kind : Showing.optional .string (document.part? 1 "kind") reference.kind
  name : Showing.required .string (document.part? 2 "name") reference.name
  uid : Showing.optional .string (document.part? 3 "uid") reference.uid

structure ScalerSpec.Shown (document : Document) (spec : ScalerSpec) : Prop where
  replicaCount : Showing.required .int32 (document.part? 0 "replicaCount") spec.replicaCount
  workloadRef :
    Showing.required TypedReference.Shown (document.part? 1 "workloadRef") spec.workloadRef

/-- Containers may be any values. -/
structure WorkloadSpec.Shown (document : Document) (spec : WorkloadSpec) : Prop where
  record : document.IsRecord
  osType : Showing.optional .string (document.part? 0 "osType") spec.osType
  containers : Showing.orElse (.list .value) [] (document.part? 1 "containers") spec.containers

namespace TypedReference

theorem reads_elements (items : List Document) :
    ElementReader.Reads items 0 4 elements (Shown (.arr items)) := by
  refine (ElementReader.reads_nextOptional Decoder.sound_string 0).bind
    fun apiVersion hapiVersion => ?_
  refine (ElementReader.reads_nextOptional Decoder.sound_string 1).bind fun kind hkind => ?_
  refine (ElementReader.reads_nextRequired Decoder.sound_string 2 _).bind fun name hname => ?_
  refine (ElementReader.reads_nextOptional Decoder.sound_string 3).bind fun uid huid => ?_
  exact .pure ⟨hapiVersion, hkind, hname, huid⟩

theorem sound_decode : Decoder.Sound decode Shown := by
  intro document reference h
  unfold decode at h
  split at h
  · next items => exact (reads_elements items).of_run h
  · simp only [bind_eq_ok] at h
    obtain ⟨members, hmembers, apiVersion, hapiVersion, kind, hkind, found, hfound, uid, huid, name,
      hname, h⟩ := h
    obtain rfl := Except.ok.inj h
    obtain rfl := required_eq_ok hname
    exact {
      apiVersion := Decoder.sound_string.optionalField hmembers hapiVersion 0
      kind := Decoder.sound_string.optionalField hmembers hkind 1
      name := Decoder.sound_string.field hmembers hfound 2
      uid := Decoder.sound_string.optionalField hmembers huid 3 }

end TypedReference

namespace ScalerSpec

theorem reads_elements (items : List Document) :
    ElementReader.Reads items 0 2 elements (Shown (.arr items)) := by
  refine (ElementReader.reads_nextRequired Decoder.sound_int32 0 _).bind
    fun replicaCount hreplicaCount => ?_
  refine (ElementReader.reads_nextRequired TypedReference.sound_decode 1 _).bind
    fun workloadRef hworkloadRef => ?_
  exact .pure ⟨hreplicaCount, hworkloadRef⟩

theorem sound_decode : Decoder.Sound decode Shown := by
  intro document spec h
  unfold decode at h
  split at h
  · next items => exact (reads_elements items).of_run h
  · simp only [bind_eq_ok] at h
    obtain ⟨members, hmembers, foundCount, hfoundCount, foundRef, hfoundRef, replicaCount,
      hreplicaCount, workloadRef, hworkloadRef, h⟩ := h
    obtain rfl := Except.ok.inj h
    obtain rfl := required_eq_ok hreplicaCount
    obtain rfl := required_eq_ok hworkloadRef
    exact {
      replicaCount := Decoder.sound_int32.field hmembers hfoundCount 0
      workloadRef := TypedReference.sound_decode.field hmembers hfoundRef 1 }

end ScalerSpec

namespace WorkloadSpec

theorem reads_elements (items : List Document) :
    ElementReader.Reads items 0 2 elements (Shown (.arr items)) := by
  refine (ElementReader.reads_nextOptional Decoder.sound_string 0).bind fun osType hosType => ?_
  refine (ElementReader.reads_next Decoder.sound_value.list 1).bind
    fun containers hcontainers => ?_
  exact .pure ⟨.inl ⟨items, rfl⟩, hosType, containers, hcontainers, rfl⟩

theorem sound_decode : Decoder.Sound decode Shown := by
  intro document spec h
  unfold decode at h
  split at h
  · next items => exact (reads_elements items).of_run h
  · simp only [bind_eq_ok] at h
    obtain ⟨members, hmembers, containers, hcontainers, osType, hosType, h⟩ := h
    obtain rfl := Except.ok.inj h
    exact {
      record := .inr (isObject_of_members hmembers)
      osType := Decoder.sound_string.optionalField hmembers hosType 0
      containers := ⟨containers, Decoder.sound_value.list.field hmembers hcontainers 1, rfl⟩ }

end WorkloadSpec

/-! ## Conditions and statuses -/

structure Condition.Shown (document : Document) (condition : Condition) : Prop where
  type : Showing.required (.word ConditionType.text) (document.part? 0 "type") condition.type
  status :
    Showing.required (.word ConditionStatus.text) (document.part? 1 "status") condition.status
  lastTransitionTime :
    Showing.required .time (document.part? 2 "lastTransitionTime") condition.lastTransitionTime
  reason :
    Showing.required (.word ConditionReason.text) (document.part? 3 "reason") condition.reason
  message : Showing.orElse .string "" (document.part? 4 "message") condition.message

/-- A status is always an object; one without conditions has none. -/
structure ConditionedStatus.Shown (document : Document) (status : ConditionedStatus) : Prop where
  object : document.IsObject
  conditions :
    Showing.orElse (.list Condition.Shown) [] (document.member? "conditions") status.conditions

structure WorkloadStatus.Shown (document : Document) (status : WorkloadStatus) : Prop where
  object : document.IsObject
  conditions :
    Showing.orElse (.list Condition.Shown) [] (document.member? "conditions") status.conditions
  resources :
    Showing.orElse (.list TypedReference.Shown) [] (document.member? "resources") status.resources

namespace Condition

theorem sound_type (beside : Decoder.Beside) :
    Decoder.Sound (.choice types beside) (.word ConditionType.text) :=
  Decoder.sound_choice (by decide) beside

theorem sound_status (beside : Decoder.Beside) :
    Decoder.Sound (.choice statuses beside) (.word ConditionStatus.text) :=
  Decoder.sound_choice (by decide) beside

theorem sound_reason (beside : Decoder.Beside) :
    Decoder.Sound (.choice reasons beside) (.word ConditionReason.text) :=
  Decoder.sound_choice (by decide) beside

theorem reads_elements (place : Place) (items : List Document) :
    ElementReader.Reads items 0 5 (elements place) (Shown (.arr items)) := by
  refine (ElementReader.reads_nextRequired (sound_type place.beside) 0 _).bind
    fun type htype => ?_
  refine (ElementReader.reads_nextRequired (sound_status place.beside) 1 _).bind
    fun status hstatus => ?_
  refine (ElementReader.reads_nextRequired Decoder.sound_time 2 _).bind fun time htime => ?_
  refine (ElementReader.reads_nextRequired (sound_reason place.beside) 3 _).bind
    fun reason hreason => ?_
  refine (ElementReader.reads_next Decoder.sound_string 4).bind fun message hmessage => ?_
  exact .pure ⟨htype, hstatus, htime, hreason, message, hmessage, rfl⟩

theorem sound_decodeAt (place : Place) : Decoder.Sound (decodeAt place) Shown := by
  intro document condition h
  unfold decodeAt at h
  split at h
  · next items => exact (reads_elements place items).of_run h
  · simp only [bind_eq_ok] at h
    obtain ⟨members, hmembers, foundTime, hfoundTime, message, hmessage, foundReason, hfoundReason,
      foundStatus, hfoundStatus, foundType, hfoundType, type, htype, status, hstatus, time, htime,
      reason, hreason, h⟩ := h
    obtain rfl := Except.ok.inj h
    obtain rfl := required_eq_ok htype
    obtain rfl := required_eq_ok hstatus
    obtain rfl := required_eq_ok htime
    obtain rfl := required_eq_ok hreason
    exact {
      type := (sound_type place.beside).field hmembers hfoundType 0
      status := (sound_status place.beside).field hmembers hfoundStatus 1
      lastTransitionTime := Decoder.sound_time.field hmembers hfoundTime 2
      reason := (sound_reason place.beside).field hmembers hfoundReason 3
      message := ⟨message, Decoder.sound_string.field hmembers hmessage 4, rfl⟩ }

end Condition

theorem ConditionedStatus.sound_decodeStatus :
    Decoder.Sound Scaler.decodeStatus ConditionedStatus.Shown := by
  refine Decoder.Sound.readable fun document status h => ?_
  simp only [bind_eq_ok] at h
  obtain ⟨members, hmembers, conditions, hconditions, h⟩ := h
  obtain rfl := Except.ok.inj h
  exact {
    object := isObject_of_members hmembers
    conditions := ⟨conditions,
      (Condition.sound_decodeAt .inStatus).list.member hmembers hconditions, rfl⟩ }

theorem WorkloadStatus.sound_decode : Decoder.Sound decode Shown := by
  intro document status h
  unfold decode at h
  simp only [bind_eq_ok] at h
  obtain ⟨members, hmembers, resources, hresources, h⟩ := h
  split at h
  · simp only [bind_eq_ok] at h
    obtain ⟨conditions, hconditions, h⟩ := h
    obtain rfl := Except.ok.inj h
    exact {
      object := isObject_of_members hmembers
      conditions := ⟨conditions,
        (Condition.sound_decodeAt .inStatus).list.member hmembers hconditions, rfl⟩
      resources := ⟨resources,
        TypedReference.sound_decode.list.member hmembers hresources, rfl⟩ }
  · cases h

/-! ## Scalers and workloads -/

/-- A status that is absent or null is none, unlike one that is an empty object. -/
structure Scaler.Shown (document : Document) (scaler : Scaler) : Prop where
  metadata : Showing.required ObjectMeta.Shown (document.part? 0 "metadata") scaler.metadata
  spec : Showing.required ScalerSpec.Shown (document.part? 1 "spec") scaler.spec
  status : Showing.optional ConditionedStatus.Shown (document.part? 2 "status") scaler.status

/-- A status that is absent or null is none, unlike one that is an empty object. -/
structure Workload.Shown (document : Document) (workload : Workload) : Prop where
  metadata : Showing.required ObjectMeta.Shown (document.part? 0 "metadata") workload.metadata
  spec : Showing.required WorkloadSpec.Shown (document.part? 1 "spec") workload.spec
  status : Showing.optional WorkloadStatus.Shown (document.part? 2 "status") workload.status

namespace Scaler

theorem reads_elements (items : List Document) :
    ElementReader.Reads items 0 3 elements (Shown (.arr items)) := by
  refine (ElementReader.reads_nextRequired ObjectMeta.sound_decode 0 _).bind
    fun metadata hmetadata => ?_
  refine (ElementReader.reads_nextRequired ScalerSpec.sound_decode 1 _).bind fun spec hspec => ?_
  refine (ElementReader.reads_nextRequired ConditionedStatus.sound_decodeStatus.optional 2 _).bind
    fun status hstatus => ?_
  exact .pure ⟨hmetadata, hspec, Showing.optional_of_required hstatus⟩

theorem sound_decode : Decoder.Sound decode Shown := by
  intro document scaler h
  unfold decode at h
  split at h
  · next items => exact (reads_elements items).of_run h
  · simp only [bind_eq_ok] at h
    obtain ⟨members, hmembers, foundMetadata, hfoundMetadata, foundSpec, hfoundSpec, status,
      hstatus, metadata, hmetadata, spec, hspec, h⟩ := h
    obtain rfl := Except.ok.inj h
    obtain rfl := required_eq_ok hmetadata
    obtain rfl := required_eq_ok hspec
    exact {
      metadata := ObjectMeta.sound_decode.field hmembers hfoundMetadata 0
      spec := ScalerSpec.sound_decode.field hmembers hfoundSpec 1
      status := ConditionedStatus.sound_decodeStatus.optionalField hmembers hstatus 2 }

end Scaler

namespace Workload

theorem reads_elements (items : List Document) :
    ElementReader.Reads items 0 3 elements (Shown (.arr items)) := by
  refine (ElementReader.reads_nextRequired ObjectMeta.sound_decode 0 _).bind
    fun metadata hmetadata => ?_
  refine (ElementReader.reads_nextRequired WorkloadSpec.sound_decode 1 _).bind
    fun spec hspec => ?_
  refine (ElementReader.reads_nextRequired WorkloadStatus.sound_decode.optional 2 _).bind
    fun status hstatus => ?_
  exact .pure ⟨hmetadata, hspec, Showing.optional_of_required hstatus⟩

theorem sound_decode : Decoder.Sound decode Shown := by
  intro document workload h
  unfold decode at h
  split at h
  · next items => exact (reads_elements items).of_run h
  · simp only [bind_eq_ok] at h
    obtain ⟨members, hmembers, foundMetadata, hfoundMetadata, foundSpec, hfoundSpec, status,
      hstatus, metadata, hmetadata, spec, hspec, h⟩ := h
    obtain rfl := Except.ok.inj h
    obtain rfl := required_eq_ok hmetadata
    obtain rfl := required_eq_ok hspec
    exact {
      metadata := ObjectMeta.sound_decode.field hmembers hfoundMetadata 0
      spec := WorkloadSpec.sound_decode.field hmembers hfoundSpec 1
      status := WorkloadStatus.sound_decode.optionalField hmembers hstatus 2 }

end Workload

end ReplicaKeeper
