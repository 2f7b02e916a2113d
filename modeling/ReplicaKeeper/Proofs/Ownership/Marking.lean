import ReplicaKeeper.Proofs.Reconcile.Overlay
import ReplicaKeeper.Proofs.Server.Identity

/-!
# Marking objects as owned

Scalers, workloads and Deployments are marked in the same way.  `Outcome` lists what can come of it:
an owner is refused for one of the reasons in `Refuses`, or it is put in its place among the owners,
`Placed`, and nothing else of the object changes.

So an object that was marked can be marked again without effect, and references to other objects
outlast every row of owners that come later.  `withOwner_marking` says all of this for every object
and every owner.
-/

set_option autoImplicit false

namespace ReplicaKeeper

namespace OwnerReference

/-! ## Groups -/

/-- An API version belongs to the group that stands before its first slash.  Without a slash it
belongs to the core group, which has no name. -/
inductive InGroup : (apiVersion group : String) → Prop
  | core {apiVersion : String} (hslash : '/' ∉ apiVersion.toList) : InGroup apiVersion ""
  | named {group version : String} (hslash : '/' ∉ group.toList) :
      InGroup (group ++ "/" ++ version) group

theorem InGroup.groupOf_eq {apiVersion group : String} (h : InGroup apiVersion group) :
    groupOf apiVersion = group := by
  unfold groupOf
  cases h with
  | core hslash => rw [if_neg (by simpa using hslash)]
  | @named group version hslash =>
      have hparts : (group ++ "/" ++ version).toList = group.toList ++ '/' :: version.toList := by
        simp [String.toList_append]
      have hbefore : (group.toList ++ '/' :: version.toList).takeWhile (· ≠ '/') = group.toList := by
        rw [List.takeWhile_append_of_pos]
        · simp
        · intro c hc
          simpa using fun heq : c = '/' => hslash (heq ▸ hc)
      rw [hparts, if_pos (by simp), hbefore, String.ofList_toList]

theorem exists_inGroup (apiVersion : String) : ∃ group, InGroup apiVersion group := by
  by_cases hslash : '/' ∈ apiVersion.toList
  · obtain ⟨before, after, hparts, hbefore⟩ := List.eq_append_cons_of_mem hslash
    have hwhole : apiVersion = String.ofList before ++ "/" ++ String.ofList after := by
      apply String.toList_inj.1
      rw [hparts]
      simp [String.toList_append]
    rw [hwhole]
    exact ⟨String.ofList before, .named (by simpa using hbefore)⟩
  · exact ⟨"", .core hslash⟩

/-- Every API version belongs to one group. -/
theorem inGroup_iff (apiVersion group : String) :
    InGroup apiVersion group ↔ groupOf apiVersion = group := by
  constructor
  · exact InGroup.groupOf_eq
  · intro h
    obtain ⟨found, hfound⟩ := exists_inGroup apiVersion
    rw [← h, hfound.groupOf_eq]
    exact hfound

/-- References are to the same object when it has the same group, kind and name in both. -/
theorem sameObject_iff (left right : OwnerReference) :
    left.sameObject right = true ↔
      (∃ group, InGroup left.apiVersion group ∧ InGroup right.apiVersion group) ∧
        left.kind = right.kind ∧ left.name = right.name := by
  have hgroup : (∃ group, InGroup left.apiVersion group ∧ InGroup right.apiVersion group) ↔
      groupOf left.apiVersion = groupOf right.apiVersion := by
    constructor
    · rintro ⟨group, hleft, hright⟩
      exact hleft.groupOf_eq.trans hright.groupOf_eq.symm
    · intro h
      exact ⟨_, (inGroup_iff _ _).2 h, (inGroup_iff _ _).2 rfl⟩
  rw [hgroup]
  simp [sameObject, and_assoc]

/-! ## Places -/

/-- Where an owner is put among others: in the place of the first reference to its object, or at the
end when there is none. -/
inductive Placed (owner : OwnerReference) : (owners placed : List OwnerReference) → Prop
  | replaced {before after : List OwnerReference} {present : OwnerReference}
      (hbefore : ∀ earlier ∈ before, earlier.sameObject owner = false)
      (hpresent : present.sameObject owner = true) :
      Placed owner (before ++ present :: after) (before ++ owner :: after)
  | appended {owners : List OwnerReference}
      (hnone : ∀ present ∈ owners, present.sameObject owner = false) :
      Placed owner owners (owners ++ [owner])

section Places

variable {owner : OwnerReference}

/-- An owner goes past references to other objects. -/
theorem place_append {before : List OwnerReference}
    (hbefore : ∀ earlier ∈ before, earlier.sameObject owner = false)
    (rest : List OwnerReference) : owner.place (before ++ rest) = before ++ owner.place rest := by
  induction before with
  | nil => rfl
  | cons first before ih =>
      have hfirst : first.sameObject owner = false := hbefore first List.mem_cons_self
      have hothers : ∀ earlier ∈ before, earlier.sameObject owner = false := fun earlier hmem =>
        hbefore earlier (List.mem_cons_of_mem _ hmem)
      rw [List.cons_append, place, if_neg (by simp [hfirst]), ih hothers, List.cons_append]

/-- An owner without a reference goes to the end. -/
theorem place_of_none {owners : List OwnerReference}
    (hnone : ∀ present ∈ owners, present.sameObject owner = false) :
    owner.place owners = owners ++ [owner] := by
  have hend := place_append hnone []
  rw [List.append_nil] at hend
  exact hend

theorem placed_place (owner : OwnerReference) (owners : List OwnerReference) :
    owner.Placed owners (owner.place owners) := by
  cases hfound : owners.find? fun present => present.sameObject owner with
  | none =>
      have hnone : ∀ present ∈ owners, present.sameObject owner = false := by
        simpa using List.find?_eq_none.1 hfound
      rw [place_of_none hnone]
      exact .appended hnone
  | some present =>
      obtain ⟨hpresent, before, after, rfl, hbefore⟩ := List.find?_eq_some_iff_append.1 hfound
      have hothers : ∀ earlier ∈ before, earlier.sameObject owner = false := by
        simpa using hbefore
      rw [place_append hothers, place, if_pos hpresent]
      exact .replaced hothers hpresent

/-- There is one place for an owner. -/
theorem placed_iff (owner : OwnerReference) (owners placed : List OwnerReference) :
    owner.Placed owners placed ↔ placed = owner.place owners := by
  constructor
  · intro h
    cases h with
    | replaced hbefore hpresent => rw [place_append hbefore, place, if_pos hpresent]
    | appended hnone => exact (place_of_none hnone).symm
  · rintro rfl
    exact placed_place owner owners

/-- References that have nothing to do with an owner stay when it is put in its place. -/
theorem filter_place (owners : List OwnerReference) {keeps : OwnerReference → Bool}
    (hkeeps : ∀ present, present.sameObject owner = true → keeps present = false) :
    (owner.place owners).filter keeps = owners.filter keeps := by
  have howner : keeps owner = false := hkeeps owner owner.sameObject_self
  have hplaced := owner.placed_place owners
  generalize owner.place owners = placed at hplaced ⊢
  cases hplaced with
  | replaced hbefore hpresent => simp [howner, hkeeps _ hpresent]
  | appended hnone => simp [howner]

theorem sameObject_trans {first second third : OwnerReference}
    (h : first.sameObject second = true) (hnext : second.sameObject third = true) :
    first.sameObject third = true := by
  simp only [sameObject, Bool.and_eq_true, decide_eq_true_eq] at h hnext ⊢
  obtain ⟨⟨hgroup, hkind⟩, hname⟩ := h
  obtain ⟨⟨hnextGroup, hnextKind⟩, hnextName⟩ := hnext
  exact ⟨⟨hgroup.trans hnextGroup, hkind.trans hnextKind⟩, hname.trans hnextName⟩

theorem sameObject_symm {first second : OwnerReference} (h : first.sameObject second = true) :
    second.sameObject first = true := by
  simp only [sameObject, Bool.and_eq_true, decide_eq_true_eq] at h ⊢
  exact ⟨⟨h.1.1.symm, h.1.2.symm⟩, h.2.symm⟩

/-- Objects that were referred to still are when an owner is put in its place. -/
theorem exists_mem_place {owners : List OwnerReference} {present : OwnerReference}
    (h : present ∈ owners) : ∃ found ∈ owner.place owners, found.sameObject present = true := by
  have hplaced := owner.placed_place owners
  generalize owner.place owners = placed at hplaced ⊢
  cases hplaced with
  | appended hnone => exact ⟨present, List.mem_append_left _ h, present.sameObject_self⟩
  | replaced hbefore hreplaced =>
      rcases List.mem_append.1 h with hmem | hmem
      · exact ⟨present, List.mem_append_left _ hmem, present.sameObject_self⟩
      · rcases List.mem_cons.1 hmem with rfl | hmem
        · exact ⟨owner, List.mem_append_right _ List.mem_cons_self, sameObject_symm hreplaced⟩
        · exact ⟨present, List.mem_append_right _ (List.mem_cons_of_mem _ hmem),
            present.sameObject_self⟩

/-- The reference is to another object than all of the owners. -/
def isElsewhere (later : List OwnerReference) (present : OwnerReference) : Bool :=
  later.all fun owner => !present.sameObject owner

end Places

end OwnerReference

/-! ## Objects of all kinds -/

namespace Stored

def owners (object : Stored) : List OwnerReference := object.metadata.owners

/-- The object with other owners, and the same otherwise. -/
def withOwners (object : Stored) (owners : List OwnerReference) : Stored :=
  match object with
  | scaler object => scaler { object with metadata := object.metadata.withOwners owners }
  | workload object => workload { object with metadata := object.metadata.withOwners owners }
  | deployment object => deployment { object with metadata := object.metadata.withOwners owners }

/-- Marks an object as owned. -/
def withOwner (object : Stored) (owner : OwnerReference) : Except OwnershipError Stored :=
  match object with
  | scaler object => (object.withOwner owner).map scaler
  | workload object => (object.withOwner owner).map workload
  | deployment object => (object.withOwner owner).map deployment

/-- Marks an object with one owner after another; an owner that is refused is passed over. -/
def markAll (object : Stored) (owners : List OwnerReference) : Stored :=
  owners.foldl (fun object owner => (object.withOwner owner).toOption.getD object) object

@[simp] theorem owners_withOwners (object : Stored) (owners : List OwnerReference) :
    (object.withOwners owners).owners = owners := by
  cases object <;> rfl

@[simp] theorem withOwners_withOwners (object : Stored) (owners others : List OwnerReference) :
    (object.withOwners owners).withOwners others = object.withOwners others := by
  cases object <;> rfl

/-- All kinds of objects are marked through their owners. -/
theorem withOwner_eq (object : Stored) (owner : OwnerReference) :
    object.withOwner owner = (owner.addTo object.owners).map object.withOwners := by
  cases object with
  | scaler object | workload object | deployment object =>
      change Except.map _ (Except.map _ (Except.map _ (owner.addTo object.metadata.owners))) =
        Except.map _ (owner.addTo object.metadata.owners)
      cases owner.addTo object.metadata.owners <;> rfl

/-- What comes of marking an object. -/
inductive Outcome (object : Stored) (owner : OwnerReference) :
    Except OwnershipError Stored → Prop
  | refused {error : OwnershipError} (hrefuses : owner.Refuses object.owners error) :
      Outcome object owner (.error error)
  /-- The owner is put in its place, and the object is the same otherwise. -/
  | marked {placed : List OwnerReference}
      (haccepts : ∀ error, ¬ owner.Refuses object.owners error)
      (hplaced : owner.Placed object.owners placed) :
      Outcome object owner (.ok (object.withOwners placed))

/-- What comes of it is listed, and there are no two outcomes. -/
theorem withOwner_eq_iff (object : Stored) (owner : OwnerReference)
    (result : Except OwnershipError Stored) :
    object.withOwner owner = result ↔ Outcome object owner result := by
  rw [withOwner_eq]
  constructor
  · rintro rfl
    cases hadded : owner.addTo object.owners with
    | error error => exact .refused ((owner.addTo_eq_error_iff _ _).1 hadded)
    | ok placed =>
        obtain ⟨-, -, -, rfl⟩ := (owner.addTo_eq_ok_iff _ _).1 hadded
        refine .marked (fun error hrefuses => ?_) (owner.placed_place _)
        rw [(owner.addTo_eq_error_iff _ _).2 hrefuses] at hadded
        cases hadded
  · intro h
    cases h with
    | refused hrefuses =>
        rw [(owner.addTo_eq_error_iff _ _).2 hrefuses]
        rfl
    | marked haccepts hplaced =>
        cases hadded : owner.addTo object.owners with
        | error error => exact absurd ((owner.addTo_eq_error_iff _ _).1 hadded) (haccepts error)
        | ok added =>
            obtain ⟨-, -, -, rfl⟩ := (owner.addTo_eq_ok_iff _ _).1 hadded
            rw [(owner.placed_iff _ _).1 hplaced]
            rfl

/-- An object that is marked has one more owner, and is the same otherwise. -/
theorem withOwner_eq_ok_iff (object : Stored) (owner : OwnerReference) (marked : Stored) :
    object.withOwner owner = .ok marked ↔
      ∃ placed, owner.addTo object.owners = .ok placed ∧ marked = object.withOwners placed := by
  rw [withOwner_eq]
  cases owner.addTo object.owners <;> simp [Except.map, eq_comm]

/-! ## Rows of owners -/

section Rows

variable (object : Stored)

/-- After an attempt to mark an object its owners are the same, or one is put in its place. -/
theorem owners_of_attempt (owner : OwnerReference) :
    ((object.withOwner owner).toOption.getD object).owners = object.owners ∨
      ((object.withOwner owner).toOption.getD object).owners = owner.place object.owners := by
  cases hmarked : object.withOwner owner with
  | error error => exact .inl rfl
  | ok marked =>
      obtain ⟨placed, hadded, rfl⟩ := (object.withOwner_eq_ok_iff owner marked).1 hmarked
      obtain ⟨-, -, -, rfl⟩ := (owner.addTo_eq_ok_iff _ _).1 hadded
      exact .inr (object.owners_withOwners _)

/-- References that have nothing to do with any owner of a row outlast the row. -/
theorem filter_markAll (owners : List OwnerReference) {keeps : OwnerReference → Bool}
    (hkeeps : ∀ owner ∈ owners, ∀ present : OwnerReference,
      present.sameObject owner = true → keeps present = false) :
    (object.markAll owners).owners.filter keeps = object.owners.filter keeps := by
  induction owners generalizing object with
  | nil => rfl
  | cons owner owners ih =>
      have hrest := ih ((object.withOwner owner).toOption.getD object) fun other hmem =>
        hkeeps other (List.mem_cons_of_mem _ hmem)
      refine hrest.trans ?_
      rcases object.owners_of_attempt owner with hsame | hplaced
      · rw [hsame]
      · rw [hplaced]
        exact OwnerReference.filter_place _ (hkeeps owner List.mem_cons_self)

/-- Objects that were referred to still are after a row of owners. -/
theorem exists_mem_markAll (owners : List OwnerReference) {present : OwnerReference}
    (h : present ∈ object.owners) :
    ∃ found ∈ (object.markAll owners).owners, found.sameObject present = true := by
  induction owners generalizing object present with
  | nil => exact ⟨present, h, present.sameObject_self⟩
  | cons owner owners ih =>
      have hnext : ∃ found ∈ ((object.withOwner owner).toOption.getD object).owners,
          found.sameObject present = true := by
        rcases object.owners_of_attempt owner with hsame | hplaced
        · rw [hsame]
          exact ⟨present, h, present.sameObject_self⟩
        · rw [hplaced]
          exact OwnerReference.exists_mem_place h
      obtain ⟨next, hmem, hsame⟩ := hnext
      obtain ⟨found, hfound, hagain⟩ := ih _ hmem
      exact ⟨found, hfound, OwnerReference.sameObject_trans hagain hsame⟩

end Rows

/-- What marking an object means, for the object and for its owners. -/
structure Marking (object : Stored) (owner : OwnerReference) : Prop where
  /-- References are to the object of the owner when group, kind and name are the same; the version
  of the group does not matter. -/
  same : ∀ present : OwnerReference, present.sameObject owner = true ↔
    (∃ group, OwnerReference.InGroup present.apiVersion group ∧
      OwnerReference.InGroup owner.apiVersion group) ∧
      present.kind = owner.kind ∧ present.name = owner.name
  outcome : ∀ result, object.withOwner owner = result ↔ Outcome object owner result
  /-- An object that is marked can be marked again, and that changes nothing. -/
  again : ∀ marked, object.withOwner owner = .ok marked → marked.withOwner owner = .ok marked
  /-- References to other objects than those of later owners stay, in their order. -/
  kept : ∀ later : List OwnerReference,
    (object.markAll later).owners.filter (OwnerReference.isElsewhere later) =
      object.owners.filter (OwnerReference.isElsewhere later)
  /-- No object loses its last reference. -/
  referred : ∀ later : List OwnerReference, ∀ present ∈ object.owners,
    ∃ found ∈ (object.markAll later).owners, found.sameObject present = true

/-- Objects of all kinds are marked in this way, with every owner. -/
theorem withOwner_marking (object : Stored) (owner : OwnerReference) : object.Marking owner where
  same present := present.sameObject_iff owner
  outcome := object.withOwner_eq_iff owner
  again marked hmarked := by
    obtain ⟨placed, hadded, rfl⟩ := (object.withOwner_eq_ok_iff owner marked).1 hmarked
    refine ((object.withOwners placed).withOwner_eq_ok_iff owner _).2 ⟨placed, ?_, ?_⟩
    · rw [owners_withOwners]
      exact OwnerReference.addTo_place hadded
    · rw [withOwners_withOwners]
  kept later := by
    refine object.filter_markAll later fun owner hmem present hsame => ?_
    have helsewhere : ¬ ∀ other ∈ later, (!present.sameObject other) = true := fun hall => by
      simpa [hsame] using hall owner hmem
    simpa [OwnerReference.isElsewhere] using helsewhere
  referred later _ hmem := object.exists_mem_markAll later hmem

end Stored

end ReplicaKeeper
