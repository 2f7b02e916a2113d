import ReplicaKeeper.Proofs.Ownership.Marking

/-!
# Several references to one object

An owner takes the place of the first reference to its object only.  When there are more of them,
the others stay, with whatever uid and version they have, and with their mark of a controller.
`withOwner_doubles` says what is left of them: the object is marked once, and by one controller, if
and only if it had one reference to the owner's object at most.

So marking an object may leave the owner twice among its owners, `not_markedOnce_sampleDoubled`.
-/

set_option autoImplicit false

namespace ReplicaKeeper

namespace OwnerReference

/-- The references to the object of an owner. -/
def ofSameObject (owner : OwnerReference) (owners : List OwnerReference) : List OwnerReference :=
  owners.filter fun present => present.sameObject owner

/-- The references that mark a controller. -/
def controllers (owners : List OwnerReference) : List OwnerReference :=
  owners.filter isController

/-- One reference is to the owner's object, and it is the owner; and when the owner is a controller,
there is one controller. -/
structure MarkedOnce (owner : OwnerReference) (owners : List OwnerReference) : Prop where
  once : owner.ofSameObject owners = [owner]
  controller : owner.isController = true → (controllers owners).length = 1

/-- What becomes of the references to the owner's object when an object is marked. -/
structure Doubles (owner : OwnerReference) (owners marked : List OwnerReference) : Prop where
  /-- The owner takes the place of the first one, and all others stay. -/
  same : owner.ofSameObject marked = owner :: (owner.ofSameObject owners).tail
  /-- With a controller for an owner, all controllers are references to its object. -/
  managed : owner.isController = true →
    controllers marked = owner :: controllers (owner.ofSameObject owners).tail
  markedOnce_iff : owner.MarkedOnce marked ↔ (owner.ofSameObject owners).length ≤ 1

section Places

variable {owner : OwnerReference} {owners : List OwnerReference}

/-- An owner takes the place of the first reference to its object. -/
theorem ofSameObject_place (owner : OwnerReference) (owners : List OwnerReference) :
    owner.ofSameObject (owner.place owners) = owner :: (owner.ofSameObject owners).tail := by
  have hself := owner.sameObject_self
  have hplaced := owner.placed_place owners
  generalize owner.place owners = placed at hplaced ⊢
  cases hplaced with
  | @replaced before after present hbefore hpresent =>
      have hnone : before.filter (fun present => present.sameObject owner) = [] := by
        simpa using hbefore
      simp [ofSameObject, hnone, hself, hpresent]
  | appended hnone =>
      have hnone : owners.filter (fun present => present.sameObject owner) = [] := by
        simpa using hnone
      simp [ofSameObject, hnone, hself]

/-- Without rivals all controllers are references to the owner's object. -/
theorem controllers_ofSameObject (hrivals : ∀ present ∈ owners, ¬ owner.IsRival present) :
    controllers (owner.ofSameObject owners) = controllers owners := by
  unfold controllers ofSameObject
  rw [List.filter_filter]
  refine List.filter_congr fun present hmem => ?_
  cases hcontroller : present.isController with
  | false => rfl
  | true =>
      cases hsame : present.sameObject owner with
      | true => rfl
      | false => exact absurd ⟨hcontroller, hsame⟩ (hrivals present hmem)

end Places

end OwnerReference

namespace Stored

open OwnerReference

/-- Of all references to its object, an owner takes the place of the first one, whatever object is
marked. -/
theorem withOwner_doubles {object marked : Stored} {owner : OwnerReference}
    (h : object.withOwner owner = .ok marked) : owner.Doubles object.owners marked.owners := by
  obtain ⟨placed, hadded, rfl⟩ := (object.withOwner_eq_ok_iff owner marked).1 h
  obtain ⟨-, -, hrivals, rfl⟩ := (owner.addTo_eq_ok_iff _ _).1 hadded
  rw [owners_withOwners]
  have hsame := owner.ofSameObject_place object.owners
  have hcontrollers (hcontroller : owner.isController = true) :
      controllers (owner.place object.owners) =
        owner :: controllers (owner.ofSameObject object.owners).tail := by
    have hnone : ∀ present ∈ owner.place object.owners, ¬ owner.IsRival present := by
      intro present hmem
      rcases eq_or_mem_of_mem_place hmem with rfl | hold
      · exact present.not_isRival_self
      · exact hrivals hcontroller present hold
    rw [← controllers_ofSameObject hnone, hsame]
    exact List.filter_cons_of_pos hcontroller
  refine ⟨hsame, hcontrollers, ?_⟩
  have htail : (owner.ofSameObject object.owners).tail = [] ↔
      (owner.ofSameObject object.owners).length ≤ 1 := by
    rw [← List.length_eq_zero_iff, List.length_tail]
    omega
  rw [← htail]
  constructor
  · intro hmarked
    exact (List.cons.inj (hsame.symm.trans hmarked.once)).2
  · intro hnone
    refine ⟨by rw [hsame, hnone], fun hcontroller => ?_⟩
    rw [hcontrollers hcontroller, hnone]
    rfl

/-- A scaler that was created anew. -/
def sampleOwner : OwnerReference :=
  { apiVersion := "core.oam.dev/v1alpha2", blockOwnerDeletion := none, controller := some true
    kind := "ManualScalerTrait", name := "web", uid := "new" }

/-- A Deployment that the scaler manages already, and that still refers to the old one as well. -/
def sampleDoubled : Stored :=
  .deployment { metadata := {
    name := some "front", ns := some "shop"
    ownerReferences := some [{ sampleOwner with uid := "old", controller := none }, sampleOwner] } }

/-- The new reference takes the place of the stale one, and stays where it was. -/
theorem withOwner_sampleDoubled : sampleDoubled.withOwner sampleOwner =
    .ok (sampleDoubled.withOwners [sampleOwner, sampleOwner]) := by
  rfl

theorem withOwner_doubles_sampleDoubled :
    sampleDoubled.withOwner sampleOwner =
        .ok (sampleDoubled.withOwners [sampleOwner, sampleOwner]) ∧
      sampleOwner.Doubles sampleDoubled.owners
        (sampleDoubled.withOwners [sampleOwner, sampleOwner]).owners :=
  ⟨withOwner_sampleDoubled, withOwner_doubles withOwner_sampleDoubled⟩

/-- So the scaler is there twice, and twice as the controller. -/
theorem not_markedOnce_sampleDoubled :
    ¬ ∀ (object marked : Stored) (owner : OwnerReference),
      object.withOwner owner = .ok marked → owner.MarkedOnce marked.owners := by
  intro hmarked
  have honce := hmarked _ _ _ withOwner_sampleDoubled
  exact absurd honce.once (by decide +kernel)

end Stored

end ReplicaKeeper
