import ReplicaKeeper.Proofs.MergePatch.NullCover

/-!
# Patches applied again

A patch finds nothing to do on its own result, `apply_apply`: what it removes is gone, and what it
sets or goes down into is there.  A null in a patch only says that a member goes.  None gets into
the value, also where the patch goes down into members that the value lacks, `nullFree_apply`.

The induction is always over the members of the patch: a member of the result is one of the value,
or it was made by a change, `eq_or_apply_of_become`.
-/

set_option autoImplicit false

namespace ReplicaKeeper.MergePatch

open Entries Json

/-! ## The members of the result -/

/-- A member after a patch is untouched, or it is what the change makes of the present one. -/
theorem eq_or_apply_of_become {change present : Option Json} {value : Json}
    (h : become change present = some value) :
    (change = none ∧ present = some value) ∨
      ∃ patch, change = some patch ∧ patch.isNull = false ∧
        value = apply patch (present.getD .null) := by
  cases change with
  | none => exact .inl ⟨rfl, h⟩
  | some patch =>
      cases hnull : patch.isNull with
      | true => simp [become, hnull] at h
      | false =>
          rw [become_some hnull] at h
          exact .inr ⟨patch, rfl, hnull, (Option.some.inj h).symm⟩

/-- A change makes nothing else of what it has made, if that holds for its value. -/
theorem become_become {change present : Option Json}
    (h : ∀ patch, change = some patch →
      apply patch (apply patch (present.getD .null)) = apply patch (present.getD .null)) :
    become change (become change present) = become change present := by
  cases change with
  | none => rfl
  | some patch =>
      cases hnull : patch.isNull with
      | true => simp [become, hnull]
      | false => rw [become_some hnull, become_some hnull, Option.getD_some, h patch rfl]

/-- What holds of the members of a value and of null holds of what a change meets. -/
theorem forall_getD_null {property : Json → Prop} {present : Option Json} (hnull : property .null)
    (h : ∀ value, present = some value → property value) : property (present.getD .null) := by
  cases present with
  | none => exact hnull
  | some value => exact h value rfl

/-- What a well formed patch makes of a well formed value is well formed. -/
theorem wellFormed_apply {patch target : Json} (hpatch : patch.WellFormed)
    (htarget : target.WellFormed) : (apply patch target).WellFormed := by
  induction patch using member_induction generalizing target with
  | step patch ih =>
      cases patch with
      | obj changes =>
          rw [apply_obj]
          refine wellFormed_of_get? (ordered_applyMembers _ htarget.ordered_membersOrEmpty) ?_
          intro name value hvalue
          rw [get?_applyMembers_eq_become hpatch.ordered] at hvalue
          rcases eq_or_apply_of_become hvalue with ⟨-, hpresent⟩ | ⟨change, hchange, -, rfl⟩
          · exact htarget.member? hpresent
          · exact ih name change hchange (hpatch.member? hchange)
              (forall_getD_null trivial fun _ => htarget.member?)
      | _ =>
          rw [apply_of_not_isObject rfl]
          exact hpatch

/-! ## The same patch twice -/

theorem apply_apply {patch target : Json} (hpatch : patch.WellFormed)
    (htarget : target.WellFormed) :
    apply patch (apply patch target) = apply patch target := by
  induction patch using member_induction generalizing target with
  | step patch ih =>
      cases patch with
      | obj changes =>
          have hordered := ordered_applyMembers changes htarget.ordered_membersOrEmpty
          rw [apply_obj changes target]
          refine apply_obj_eq hpatch.ordered hordered hordered fun name => ?_
          rw [member?_obj, get?_applyMembers_eq_become hpatch.ordered]
          refine become_become fun change hchange => ?_
          exact ih name change hchange (hpatch.member? hchange)
            (forall_getD_null trivial fun _ => htarget.member?)
      | _ => rw [apply_of_not_isObject rfl, apply_of_not_isObject rfl]

/-! ## No nulls -/

/-- What is no object has no members to be null. -/
theorem nullFree_of_not_isObject {value : Json} (h : value.isObject = false) : NullFree value := by
  cases value with
  | obj members => cases h
  | _ => trivial

theorem NullFree.member? {value child : Json} {name : String} (h : NullFree value)
    (hchild : value.member? name = some child) : child ≠ .null ∧ NullFree child := by
  cases value with
  | obj members => exact NullFree.get? h hchild
  | _ => cases hchild

theorem nullFree_apply {patch target : Json} (hpatch : patch.WellFormed)
    (htarget : target.WellFormed) (h : NullFree target) : NullFree (apply patch target) := by
  induction patch using member_induction generalizing target with
  | step patch ih =>
      cases patch with
      | obj changes =>
          rw [apply_obj]
          refine nullFree_of_get? (ordered_applyMembers _ htarget.ordered_membersOrEmpty) ?_
          intro name value hvalue
          rw [get?_applyMembers_eq_become hpatch.ordered] at hvalue
          rcases eq_or_apply_of_become hvalue with ⟨-, hpresent⟩ | ⟨change, hchange, hnull, rfl⟩
          · exact h.member? hpresent
          · -- A change that is not null leads to no null, even where it meets one.
            refine ⟨(isNull_eq_false_iff _).1 (isNull_apply hnull _), ?_⟩
            exact ih name change hchange (hpatch.member? hchange)
              (forall_getD_null trivial fun _ => htarget.member?)
              (forall_getD_null trivial fun _ hpresent => (h.member? hpresent).2)
      | _ => exact nullFree_of_not_isObject (by rw [apply_of_not_isObject rfl]; rfl)

/-! ## Both -/

/-- A patch that is applied to its own result changes nothing, and it leaves a value without nulls
without nulls. -/
theorem apply_idempotent {patch target : Json} (hpatch : patch.WellFormed)
    (htarget : target.WellFormed) :
    (apply patch target).WellFormed ∧ apply patch (apply patch target) = apply patch target ∧
      (NullFree target → NullFree (apply patch target)) :=
  ⟨wellFormed_apply hpatch htarget, apply_apply hpatch htarget, nullFree_apply hpatch htarget⟩

/-- Goes down two members that are not there, removes one that is and one that is not. -/
def sampleDescent : Json :=
  .obj [("metadata", .obj [("labels", .obj [("tier", .str "web"), ("zone", .null)])]),
    ("paused", .null), ("spec", .null)]

/-- Has a text where the patch expects an object. -/
def sampleMet : Json := .obj [("metadata", .str "none"), ("spec", .obj [("replicas", .int 2)])]

theorem apply_idempotent_sampleDescent :
    sampleDescent.WellFormed ∧ sampleMet.WellFormed ∧ NullFree sampleMet ∧
      apply sampleDescent sampleMet =
        .obj [("metadata", .obj [("labels", .obj [("tier", .str "web")])])] ∧
      apply sampleDescent (apply sampleDescent sampleMet) = apply sampleDescent sampleMet ∧
      NullFree (apply sampleDescent sampleMet) := by
  have hpatch : sampleDescent.WellFormed := by
    simp only [sampleDescent, WellFormed, WellFormedMembers]
    decide
  have hmet : sampleMet.WellFormed := by
    simp only [sampleMet, WellFormed, WellFormedMembers]
    decide
  have hfree : NullFree sampleMet := by simp [sampleMet, NullFree, NullFreeMembers]
  obtain ⟨-, hagain, hstays⟩ := apply_idempotent hpatch hmet
  exact ⟨hpatch, hmet, hfree, by rfl, hagain, hstays hfree⟩

end ReplicaKeeper.MergePatch
