import ReplicaKeeper.Object.Scaler
import ReplicaKeeper.Ownership

/-!
# When an owner is refused, and when it is added

`Refuses` lists why an owner cannot be added to others: it lacks its uid or its name, or there is a
rival controller.  Adding it fails for these reasons and for no others, `addTo_eq_error_iff`.  An
owner that was added can be added again, and that changes nothing, `addTo_place`.
-/

set_option autoImplicit false

namespace ReplicaKeeper

namespace OwnerReference

/-- A reference that marks another object as the controller. -/
def IsRival (owner present : OwnerReference) : Prop :=
  present.isController = true ∧ present.sameObject owner = false

/-- Why an owner cannot be added to others. -/
inductive Refuses (owner : OwnerReference) (owners : List OwnerReference) : OwnershipError → Prop
  | missingUid (huid : owner.uid = "") : Refuses owner owners .missingUid
  | missingName (huid : owner.uid ≠ "") (hname : owner.name = "") :
      Refuses owner owners .missingName
  /-- The first rival stands in the way of a controller. -/
  | alreadyOwned (huid : owner.uid ≠ "") (hname : owner.name ≠ "")
      (hcontroller : owner.isController = true) {present : OwnerReference}
      {before after : List OwnerReference} (howners : owners = before ++ present :: after)
      (hbefore : ∀ earlier ∈ before, ¬ owner.IsRival earlier) (hpresent : owner.IsRival present) :
      Refuses owner owners (.alreadyOwned present.kind present.name)

/-- The other controller that is found is the first rival. -/
theorem otherController?_eq_some_iff (owner present : OwnerReference)
    (owners : List OwnerReference) :
    owner.otherController? owners = some present ↔
      owner.IsRival present ∧ ∃ before after, owners = before ++ present :: after ∧
        ∀ earlier ∈ before, ¬ owner.IsRival earlier := by
  have hrival (other : OwnerReference) :
      (other.isController && !other.sameObject owner) = true ↔ owner.IsRival other := by
    simp [IsRival]
  unfold otherController?
  rw [List.find?_eq_some_iff_append, hrival]
  simp only [Bool.not_eq_true', ← Bool.not_eq_true, hrival]

/-- An owner is refused for the listed reasons only, and for each of them. -/
theorem addTo_eq_error_iff (owner : OwnerReference) (owners : List OwnerReference)
    (error : OwnershipError) :
    owner.addTo owners = .error error ↔ owner.Refuses owners error := by
  constructor
  · intro h
    unfold addTo at h
    split at h
    · next huid =>
      cases h
      exact .missingUid (by simpa using huid)
    · next huid =>
      have huid : owner.uid ≠ "" := by simpa using huid
      split at h
      · next hname =>
        cases h
        exact .missingName huid (by simpa using hname)
      · next hname =>
        have hname : owner.name ≠ "" := by simpa using hname
        split at h
        · next present hrival =>
          cases h
          split at hrival
          · next hcontroller =>
            obtain ⟨hpresent, before, after, howners, hbefore⟩ :=
              (otherController?_eq_some_iff owner present owners).1 hrival
            exact .alreadyOwned huid hname hcontroller howners hbefore hpresent
          · cases hrival
        · cases h
  · intro h
    unfold addTo
    cases h with
    | missingUid huid => rw [huid]; rfl
    | missingName huid hname =>
        rw [if_neg (by simpa using huid), hname]
        rfl
    | @alreadyOwned huid hname hcontroller present before after howners hbefore hpresent =>
        have hrival := (otherController?_eq_some_iff owner present owners).2
          ⟨hpresent, before, after, howners, hbefore⟩
        rw [if_neg (by simpa using huid), if_neg (by simpa using hname), if_pos hcontroller, hrival]

/-! ## Owners that are added -/

theorem sameObject_self (owner : OwnerReference) : owner.sameObject owner = true := by
  simp [sameObject]

theorem not_isRival_self (owner : OwnerReference) : ¬ owner.IsRival owner := by
  rintro ⟨-, hother⟩
  rw [sameObject_self] at hother
  cases hother

theorem mem_place_self (owner : OwnerReference) (owners : List OwnerReference) :
    owner ∈ owner.place owners := by
  induction owners with
  | nil => exact List.mem_singleton_self owner
  | cons present owners ih =>
      rw [place]
      split
      · exact List.mem_cons_self
      · exact List.mem_cons_of_mem _ ih

/-- Only the owner itself is new. -/
theorem eq_or_mem_of_mem_place {owner present : OwnerReference} {owners : List OwnerReference}
    (h : present ∈ owner.place owners) : present = owner ∨ present ∈ owners := by
  induction owners with
  | nil => exact .inl (List.mem_singleton.1 h)
  | cons first owners ih =>
      rw [place] at h
      split at h
      · exact (List.mem_cons.1 h).imp_right (List.mem_cons_of_mem _)
      · rcases List.mem_cons.1 h with rfl | hmem
        · exact .inr List.mem_cons_self
        · exact (ih hmem).imp_right (List.mem_cons_of_mem _)

/-- An owner takes its own place. -/
theorem place_place (owner : OwnerReference) (owners : List OwnerReference) :
    owner.place (owner.place owners) = owner.place owners := by
  induction owners with
  | nil => simp [place, sameObject_self]
  | cons present owners ih =>
      by_cases hsame : present.sameObject owner = true
      · simp [place, hsame, sameObject_self]
      · simp [place, hsame, ih]

/-- An owner is added unless something stands in its way. -/
theorem addTo_eq_ok_iff (owner : OwnerReference) (owners added : List OwnerReference) :
    owner.addTo owners = .ok added ↔
      owner.uid ≠ "" ∧ owner.name ≠ "" ∧
        (owner.isController = true → ∀ present ∈ owners, ¬ owner.IsRival present) ∧
        added = owner.place owners := by
  have hrivals : owner.otherController? owners = none ↔
      ∀ present ∈ owners, ¬ owner.IsRival present := by
    simp [otherController?, IsRival]
  have hblank (text : String) : text.isEmpty = false ↔ text ≠ "" := by
    rw [← Bool.not_eq_true, String.isEmpty_iff]
  unfold addTo
  cases huid : owner.uid.isEmpty with
  | true => simp_all
  | false =>
      cases hname : owner.name.isEmpty with
      | true => simp_all
      | false =>
          rw [hblank] at huid hname
          cases hcontroller : owner.isController with
          | false => simp [huid, hname, eq_comm]
          | true =>
              rw [if_neg Bool.false_ne_true, if_neg Bool.false_ne_true, if_pos rfl]
              cases hrival : owner.otherController? owners with
              | none =>
                  have hnone := hrivals.1 hrival
                  simpa [huid, hname, eq_comm] using fun _ => hnone
              | some present =>
                  have hnot : ¬ ∀ present ∈ owners, ¬ owner.IsRival present := by
                    rw [← hrivals, hrival]
                    simp
                  simp [hnot]

/-- Adding an owner for a second time changes nothing. -/
theorem addTo_place {owner : OwnerReference} {owners added : List OwnerReference}
    (h : owner.addTo owners = .ok added) : owner.addTo added = .ok added := by
  obtain ⟨huid, hname, hrivals, rfl⟩ := (addTo_eq_ok_iff owner owners added).1 h
  refine (addTo_eq_ok_iff owner _ _).2 ⟨huid, hname, fun hcontroller present hmem => ?_, ?_⟩
  · rcases eq_or_mem_of_mem_place hmem with rfl | hold
    · exact present.not_isRival_self
    · exact hrivals hcontroller present hold
  · exact (owner.place_place owners).symm

end OwnerReference

/-- A Deployment refuses an owner when its other owners do. -/
theorem Deployment.withOwner_eq_error_iff (deployment : Deployment) (owner : OwnerReference)
    (error : OwnershipError) :
    deployment.withOwner owner = .error error ↔
      owner.Refuses deployment.metadata.owners error := by
  rw [← OwnerReference.addTo_eq_error_iff]
  unfold withOwner ObjectMeta.withOwner
  cases owner.addTo deployment.metadata.owners with
  | error found => simp [Except.map]
  | ok owners => simp [Except.map]

/-- A Deployment that is owned has one more owner, and is the same otherwise. -/
theorem Deployment.withOwner_eq_ok_iff (deployment : Deployment) (owner : OwnerReference)
    (owned : Deployment) :
    deployment.withOwner owner = .ok owned ↔
      ∃ owners, owner.addTo deployment.metadata.owners = .ok owners ∧
        owned = { deployment with
          metadata := { deployment.metadata with ownerReferences := some owners } } := by
  unfold withOwner ObjectMeta.withOwner
  cases owner.addTo deployment.metadata.owners with
  | error found => simp [Except.map]
  | ok owners => simp [Except.map, eq_comm]

/-- A scaler marks nothing as managed when it has no name or no uid. -/
theorem Scaler.ownerReference?_eq_none_iff (scaler : Scaler) :
    scaler.ownerReference? = none ↔ scaler.metadata.name = none ∨ scaler.metadata.uid = none := by
  unfold ownerReference?
  cases scaler.metadata.name with
  | none => exact ⟨fun _ => .inl rfl, fun _ => rfl⟩
  | some name =>
      cases scaler.metadata.uid with
      | none => exact ⟨fun _ => .inr rfl, fun _ => rfl⟩
      | some uid => simp

/-- A scaler marks objects as managed by its name and its uid. -/
theorem Scaler.ownerReference?_eq_some_iff (scaler : Scaler) (owner : OwnerReference) :
    scaler.ownerReference? = some owner ↔
      ∃ name uid, scaler.metadata.name = some name ∧ scaler.metadata.uid = some uid ∧
        owner = { apiVersion, blockOwnerDeletion := none, controller := some true, kind, name, uid } := by
  unfold ownerReference?
  cases scaler.metadata.name with
  | none => simp
  | some name =>
      cases scaler.metadata.uid with
      | none => simp
      | some uid => simp [eq_comm]

end ReplicaKeeper
