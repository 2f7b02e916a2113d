import ReplicaKeeper.Proofs.MergePatch

/-!
# The exact border of the round trip

A merge patch cannot set a member to null: null in a patch removes the member.  The patch computed
for a desired value that holds null therefore leads to it only where the null is there before.
`NullCovered` says that this is so wherever it matters, and `apply_diff_eq_iff` that the round trip
holds in these cases and in no others.

What a name has after a patch is `become` of its change; `sameMember_become` follows the change of
one member through all its cases, by induction over the members of the desired value.  Plain values
have no null, so they are reached from every value, `apply_diff`.
-/

set_option autoImplicit false

namespace ReplicaKeeper.MergePatch

open Entries Json

/-! ## Covered nulls -/

instance (value : Json) : Decidable (value = .null) :=
  decidable_of_iff _ value.isNull_eq_true_iff

instance (found : Option Json) : Decidable (found = some .null) :=
  decidable_of_iff (found.any isNull = true) (by simp [Option.any_eq_true, isNull_eq_true_iff])

mutual

/-- Every null member of the desired value, at any depth outside arrays, is a null member of the
base as well.  A base that is no object counts as the empty one. -/
def NullCovered : (desired : Json) → (base : Json) → Prop
  | .obj desired, base => NullCoveredMembers desired base.membersOrEmpty
  | _, _ => True

def NullCoveredMembers : (desired : List (String × Json)) → (base : Members) → Prop
  | [], _ => True
  | (name, value) :: desired, base =>
      (value = .null → get? base name = some .null) ∧
        NullCovered value ((get? base name).getD emptyObject) ∧ NullCoveredMembers desired base

end

mutual

/-- No object member outside arrays is null. -/
def NullFree : Json → Prop
  | .obj members => NullFreeMembers members
  | _ => True

def NullFreeMembers : List (String × Json) → Prop
  | [] => True
  | (_, value) :: members => value ≠ .null ∧ NullFree value ∧ NullFreeMembers members

end

mutual

instance decidableNullCovered : (desired base : Json) → Decidable (NullCovered desired base)
  | .obj desired, base => decidableNullCoveredMembers desired base.membersOrEmpty
  | .null, _ | .bool _, _ | .int _, _ | .float _, _ | .str _, _ | .arr _, _ => .isTrue trivial

instance decidableNullCoveredMembers :
    (desired : List (String × Json)) → (base : Members) →
      Decidable (NullCoveredMembers desired base)
  | [], _ => .isTrue trivial
  | (name, value) :: desired, base =>
      have := decidableNullCovered value ((get? base name).getD emptyObject)
      have := decidableNullCoveredMembers desired base
      inferInstanceAs (Decidable (_ ∧ _ ∧ _))

end

/-- What it takes for one member: a null is there before, and an object is covered. -/
def MemberCovered (value : Json) (base : Option Json) : Prop :=
  (value = .null → base = some .null) ∧ NullCovered value (base.getD emptyObject)

theorem nullCoveredMembers_iff {desired : Members} (h : Ordered desired) (base : Members) :
    NullCoveredMembers desired base ↔
      ∀ name value, get? desired name = some value → MemberCovered value (get? base name) := by
  induction desired with
  | nil => simp [NullCoveredMembers]
  | cons entry desired ih =>
      obtain ⟨first, head⟩ := entry
      rw [NullCoveredMembers, ih h.of_cons]
      constructor
      · rintro ⟨hnull, hhead, hrest⟩ name value hvalue
        rw [get?_cons] at hvalue
        by_cases hname : first = name
        · rw [if_pos hname] at hvalue
          cases hvalue
          exact hname ▸ ⟨hnull, hhead⟩
        · rw [if_neg hname] at hvalue
          exact hrest name value hvalue
      · intro hall
        have hhead := hall first head (by rw [get?_cons, if_pos rfl])
        refine ⟨hhead.1, hhead.2, fun name value hvalue => hall name value ?_⟩
        have hne : first ≠ name := by
          rintro rfl
          rw [get?_eq_none_of_nodup (nodup_keys_of_ordered h)] at hvalue
          cases hvalue
        rw [get?_cons, if_neg hne, hvalue]

theorem nullCovered_congr {left right : Json} (h : left.membersOrEmpty = right.membersOrEmpty)
    (desired : Json) : NullCovered desired left ↔ NullCovered desired right := by
  cases desired with
  | obj members => rw [NullCovered, NullCovered, h]
  | _ => simp [NullCovered]

theorem NullFree.get? {members : Members} (h : NullFreeMembers members) {name : String}
    {value : Json} (hvalue : Entries.get? members name = some value) :
    value ≠ .null ∧ NullFree value := by
  induction members with
  | nil => cases hvalue
  | cons entry members ih =>
      obtain ⟨first, head⟩ := entry
      rw [get?_cons] at hvalue
      split at hvalue
      · cases hvalue
        exact ⟨h.1, h.2.1⟩
      · exact ih h.2.2 hvalue

theorem nullFreeMembers_iff (members : List (String × Json)) :
    NullFreeMembers members ↔ ∀ member ∈ members, member.2 ≠ .null ∧ NullFree member.2 := by
  induction members with
  | nil => simp [NullFreeMembers]
  | cons member members ih => simp [NullFreeMembers, ih, and_assoc]

/-- Members in order are free of nulls when all that is found among them is. -/
theorem nullFree_of_get? {members : Members} (h : Ordered members)
    (hvalues : ∀ name value, Entries.get? members name = some value →
      value ≠ .null ∧ NullFree value) : NullFree (.obj members) := by
  refine (nullFreeMembers_iff _).2 fun member hmember => ?_
  exact hvalues member.1 member.2 (get?_of_mem (nodup_keys_of_ordered h) hmember)

/-- Without a null there is nothing to cover. -/
theorem NullFree.nullCovered {desired : Json} (hdesired : desired.WellFormed)
    (h : NullFree desired) (base : Json) : NullCovered desired base := by
  induction desired using member_induction generalizing base with
  | step desired ih =>
      cases desired with
      | obj members =>
          refine (nullCoveredMembers_iff hdesired.ordered _).2 fun name value hvalue => ?_
          have hfree := NullFree.get? h hvalue
          exact ⟨fun hnull => absurd hnull hfree.1,
            ih name value hvalue (hdesired.member? hvalue) hfree.2 _⟩
      | _ => simp [NullCovered]

/-- A value that is there already is covered, unless it is an object. -/
theorem memberCovered_of_beq {value base : Json}
    (hobject : base.isObject = false ∨ value.isObject = false) (h : (base == value) = true) :
    MemberCovered value (some base) := by
  cases value with
  | null =>
      rw [eq_null_of_beq h]
      exact ⟨fun _ => rfl, trivial⟩
  | obj members =>
      have hsame : base.isObject = true := isObject_eq_of_beq h
      rcases hobject with hobject | hobject
      · rw [hsame] at hobject
        cases hobject
      · cases hobject
  | _ => simp [MemberCovered, NullCovered]

/-! ## One member under its change -/

theorem diff_of_not_isObject {base desired : Json}
    (h : base.isObject = false ∨ desired.isObject = false) : diff base desired = desired := by
  unfold diff
  split
  · rcases h with h | h <;> cases h
  · rfl

/-- A value as a patch for an object without members, or for a value that is no object: the nulls
are lost. -/
theorem beq_apply_iff_of_membersOrEmpty_eq_nil {value target : Json} (hvalue : value.WellFormed)
    (htarget : target.membersOrEmpty = []) :
    (apply value target == value) = true ↔ NullCovered value target := by
  induction value using member_induction generalizing target with
  | step value ih =>
      cases value with
      | obj members =>
          rw [NullCovered, apply, htarget, beq_obj_iff (ordered_applyMembers _ ordered_nil)
            hvalue.ordered, nullCoveredMembers_iff hvalue.ordered]
          refine forall_congr' fun name => ?_
          rw [get?_applyMembers_eq_become hvalue.ordered, get?_nil]
          cases hmember : get? members name with
          | none => simp [become, SameMember]
          | some member =>
              have happly : (apply member .null == member) = true ↔ NullCovered member .null :=
                ih name member hmember (hvalue.member? hmember) rfl
              have hempty : null.membersOrEmpty = emptyObject.membersOrEmpty := rfl
              have hcongr := nullCovered_congr hempty member
              cases member with
              | null => simp [become, SameMember, MemberCovered, isNull]
              | _ =>
                  simpa [become, SameMember, MemberCovered, isNull, hcongr] using happly
      | _ =>
          rw [apply_of_not_isObject rfl]
          simp [NullCovered]

/-- A value as a patch for one that it replaces. -/
theorem beq_apply_iff {value target : Json} (hvalue : value.WellFormed)
    (h : target.membersOrEmpty = [] ∨ value.isObject = false) :
    (apply value target == value) = true ↔ NullCovered value target := by
  rcases h with htarget | hobject
  · exact beq_apply_iff_of_membersOrEmpty_eq_nil hvalue htarget
  · rw [apply_of_not_isObject hobject]
    cases value with
    | obj members => cases hobject
    | _ => simp [NullCovered]

/-- A member that takes the place of another one.  A null that is there already is no such case. -/
theorem sameMember_become_replace {value : Json} (hvalue : value.WellFormed) {present : Option Json}
    (hreplace : (present.getD .null).membersOrEmpty = [] ∨ value.isObject = false)
    (hpresent : value = .null → present ≠ some .null) :
    SameMember (become (some value) present) (some value) ↔ MemberCovered value present := by
  by_cases hnull : value = .null
  · subst hnull
    simp [become, isNull, SameMember, MemberCovered, hpresent]
  · have hisNull : value.isNull = false := by cases value <;> first | rfl | exact absurd rfl hnull
    have hmembers : (present.getD .null).membersOrEmpty =
        (present.getD emptyObject).membersOrEmpty := by cases present <;> rfl
    rw [MemberCovered, ← nullCovered_congr hmembers, ← beq_apply_iff hvalue hreplace]
    simp [become, hisNull, SameMember, hnull]

/-- The patch between two objects, when the changes of all their members are known to lead to equal
members exactly where these are covered. -/
theorem beq_applyMembers_iff {base desired : Members} (hbase : Ordered base)
    (hdesired : Ordered desired)
    (h : ∀ name value, get? desired name = some value →
      (SameMember (become (change? value (get? base name)) (get? base name)) (some value) ↔
        MemberCovered value (get? base name))) :
    (obj (applyMembers (diffMembers base desired) base) == obj desired) = true ↔
      NullCoveredMembers desired base := by
  rw [beq_obj_iff (ordered_applyMembers _ hbase) hdesired, nullCoveredMembers_iff hdesired]
  refine forall_congr' fun name => ?_
  rw [get?_applyMembers_eq_become (ordered_diffMembers hbase desired), get?_diffMembers hdesired]
  cases hvalue : get? desired name with
  | none => cases get? base name <;> simp [become, SameMember, isNull]
  | some value => simpa using h name value hvalue

/-- The change of a member leads to a member equal to the desired one exactly when this is
covered. -/
theorem sameMember_become {value : Json} (hvalue : value.WellFormed) {present : Option Json}
    (hpresent : ∀ base, present = some base → base.WellFormed) :
    SameMember (become (change? value present) present) (some value) ↔
      MemberCovered value present := by
  induction value using member_induction generalizing present with
  | step value ih =>
      cases present with
      | none =>
          rw [change?_none]
          exact sameMember_become_replace hvalue (.inl rfl) (by simp)
      | some base =>
          rcases base.objects_or_not value with ⟨base, desired, rfl, rfl⟩ | hreplace
          · have hbase := hpresent _ rfl
            rw [become_change?_obj hbase.ordered hvalue.ordered]
            have hmembers := beq_applyMembers_iff hbase.ordered hvalue.ordered
              fun name member hmember => ih name member hmember (hvalue.member? hmember)
                fun found hfound => hbase.member? hfound
            simpa [SameMember, MemberCovered, NullCovered] using hmembers
          · cases heq : base == value with
            | true =>
                rw [change?_of_beq heq]
                exact iff_of_true heq (memberCovered_of_beq hreplace heq)
            | false =>
                rw [change?_of_not_isObject hreplace heq]
                refine sameMember_become_replace hvalue (hreplace.imp_left membersOrEmpty_eq_nil) ?_
                rintro rfl hnull
                cases hnull
                cases heq

/-! ## The round trip -/

theorem beq_apply_diff_iff {base desired : Json} (hbase : base.WellFormed)
    (hdesired : desired.WellFormed) :
    (apply (diff base desired) base == desired) = true ↔ NullCovered desired base := by
  rcases base.objects_or_not desired with ⟨base, desired, rfl, rfl⟩ | hreplace
  · rw [diff, apply]
    exact beq_applyMembers_iff hbase.ordered hdesired.ordered fun name value hvalue =>
      sameMember_become (hdesired.member? hvalue) fun found hfound => hbase.member? hfound
  · rw [diff_of_not_isObject hreplace]
    exact beq_apply_iff hdesired (hreplace.imp_left membersOrEmpty_eq_nil)

/-- The patch from one value to another turns the first into the second exactly when the nulls of
the second are covered, and so always when it has none. -/
theorem apply_diff_eq_iff {base desired : Json} (hbase : base.WellFormed)
    (hdesired : desired.WellFormed) :
    ((apply (diff base desired) base == desired) = true ↔ NullCovered desired base) ∧
      (NullFree desired → (apply (diff base desired) base == desired) = true) := by
  have hcovered := beq_apply_diff_iff hbase hdesired
  exact ⟨hcovered, fun hfree => hcovered.2 (hfree.nullCovered hdesired base)⟩

/-- A null that is there already stays, next to a member that changes. -/
def samplePresent : Json := .obj [("spec", .obj [("paused", .null), ("replicas", .int 2)])]

def sampleDesired : Json := .obj [("spec", .obj [("paused", .null), ("replicas", .int 3)])]

theorem apply_diff_samplePresent :
    samplePresent.WellFormed ∧ sampleDesired.WellFormed ∧
      NullCovered sampleDesired samplePresent ∧
      (apply (diff samplePresent sampleDesired) samplePresent == sampleDesired) = true := by
  have hpresent : samplePresent.WellFormed := by
    simp only [samplePresent, WellFormed, WellFormedMembers]
    decide
  have hdesired : sampleDesired.WellFormed := by
    simp only [sampleDesired, WellFormed, WellFormedMembers]
    decide
  have hcovered : NullCovered sampleDesired samplePresent := by decide
  exact ⟨hpresent, hdesired, hcovered, (apply_diff_eq_iff hpresent hdesired).1.2 hcovered⟩

/-- A null that is not there before is lost. -/
example : (apply (diff .emptyObject sampleDesired) .emptyObject == sampleDesired) = false := by
  decide

/-! ## Plain values -/

mutual

theorem nullFree_of_plain : ∀ {value : Json}, value.Plain → NullFree value
  | .obj _, h => nullFreeMembers_of_plain h.2
  | .null, h | .float _, h => absurd h id
  | .bool _, _ | .int _, _ | .str _, _ | .arr _, _ => trivial

theorem nullFreeMembers_of_plain : ∀ {members : List (String × Json)}, PlainMembers members →
    NullFreeMembers members
  | [], _ => trivial
  | (_, value) :: _, h => by
      have hnull : value ≠ .null := by
        rintro rfl
        exact h.1
      exact ⟨hnull, nullFree_of_plain h.1, nullFreeMembers_of_plain h.2⟩

end

/-- A plain value has no null to cover. -/
theorem nullCovered_of_plain {desired : Json} (h : desired.Plain) (base : Json) :
    NullCovered desired base :=
  (nullFree_of_plain h).nullCovered h.wellFormed base

/-- A plain value as a patch for an object without members, or for a value that is no object. -/
theorem apply_of_membersOrEmpty_eq_nil {value target : Json} (h : value.Plain)
    (htarget : target.membersOrEmpty = []) : apply value target = value := by
  refine eq_of_beq h ?_
  exact (beq_apply_iff_of_membersOrEmpty_eq_nil h.wellFormed htarget).2 (nullCovered_of_plain h _)

/-- The patch from a well formed value to a plain one turns the first into the second. -/
theorem apply_diff {base desired : Json} (hbase : base.WellFormed) (hdesired : desired.Plain) :
    apply (diff base desired) base = desired := by
  refine eq_of_beq hdesired ?_
  exact (beq_apply_diff_iff hbase hdesired.wellFormed).2 (nullCovered_of_plain hdesired base)

theorem applyMembers_diffMembers {base desired : Members} (hbase : (obj base).WellFormed)
    (hdesired : (obj desired).Plain) : applyMembers (diffMembers base desired) base = desired := by
  have happly := apply_diff hbase hdesired
  rw [diff, apply] at happly
  exact obj.inj happly

end ReplicaKeeper.MergePatch
