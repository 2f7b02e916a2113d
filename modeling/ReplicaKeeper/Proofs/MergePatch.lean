import ReplicaKeeper.MergePatch
import ReplicaKeeper.Proofs.Json.Equality

/-!
# Merge patches by look-ups

`get?_diffMembers` says what the patch between two objects has under a name, and
`get?_applyMembers_eq_become` what an object has under a name after a patch: what has `become` of it.
A member is changed by `change?`, whose cases have a lemma each.
-/

set_option autoImplicit false

namespace ReplicaKeeper

open Entries

namespace MergePatch

/-! ## After a patch -/

theorem ordered_applyMembers (changes : List (String × Json)) {members : Members}
    (h : Ordered members) : Ordered (applyMembers changes members) := by
  induction changes generalizing members with
  | nil =>
      rw [applyMembers]
      exact h
  | cons entry changes ih =>
      obtain ⟨name, change⟩ := entry
      rw [applyMembers]
      by_cases hnull : change.isNull = true
      · rw [if_pos hnull]
        exact ih (h.erase name)
      · rw [if_neg hnull]
        exact ih (ordered_insert h _ _)

/-- What an object has under a name after a patch: what it had before, unless the patch mentions the
name. -/
theorem get?_applyMembers {changes : Members} (hchanges : (keys changes).Nodup) (members : Members)
    (name : String) :
    get? (applyMembers changes members) name =
      match get? changes name with
      | none => get? members name
      | some change =>
          if change.isNull then none
          else some (apply change ((get? members name).getD .null)) := by
  induction changes generalizing members with
  | nil => rw [applyMembers, get?_nil]
  | cons entry changes ih =>
      obtain ⟨first, change⟩ := entry
      have hrest : (keys changes).Nodup := (List.nodup_cons.1 hchanges).2
      rw [applyMembers, get?_cons]
      by_cases hname : first = name
      · subst hname
        rw [if_pos rfl]
        have hnone : get? changes first = none := get?_eq_none_of_nodup hchanges
        by_cases hnull : change.isNull = true
        · simp only [if_pos hnull, ih hrest, hnone, get?_erase, ↓reduceIte]
        · simp only [if_neg hnull, ih hrest, hnone, get?_insert, ↓reduceIte]
      · rw [if_neg hname]
        by_cases hnull : change.isNull = true
        · simp only [if_pos hnull, ih hrest, get?_erase, if_neg hname]
        · simp only [if_neg hnull, ih hrest, get?_insert, if_neg hname]

theorem apply_obj (changes : Members) (target : Json) :
    apply (.obj changes) target = .obj (applyMembers changes target.membersOrEmpty) := by
  rw [apply]

/-- A patch that is no object replaces the value. -/
theorem apply_of_not_isObject {patch : Json} (h : patch.isObject = false) (target : Json) :
    apply patch target = patch := by
  cases patch with
  | obj members => cases h
  | _ => rw [apply]; simp

/-- What a patch leads to is null only if the patch is. -/
theorem isNull_apply {patch : Json} (h : patch.isNull = false) (target : Json) :
    (apply patch target).isNull = false := by
  cases patch with
  | null => cases h
  | obj changes =>
      rw [apply_obj]
      rfl
  | _ =>
      rw [apply_of_not_isObject rfl]
      rfl

/-- What a name has after a patch that holds the given change for it. -/
def become (change : Option Json) (present : Option Json) : Option Json :=
  match change with
  | none => present
  | some change => if change.isNull then none else some (apply change (present.getD .null))

theorem become_some {change : Json} (h : change.isNull = false) (present : Option Json) :
    become (some change) present = some (apply change (present.getD .null)) := by
  simp [become, h]

theorem get?_applyMembers_eq_become {changes : Members} (hchanges : Ordered changes)
    (members : Members) (name : String) :
    get? (applyMembers changes members) name = become (get? changes name) (get? members name) := by
  rw [get?_applyMembers (nodup_keys_of_ordered hchanges)]
  rfl

/-- What an object as a patch leads to, name by name. -/
theorem apply_obj_eq {changes after : Members} {target : Json} (hchanges : Ordered changes)
    (htarget : Ordered target.membersOrEmpty) (hafter : Ordered after)
    (h : ∀ name, become (get? changes name) (target.member? name) = get? after name) :
    apply (.obj changes) target = .obj after := by
  rw [apply_obj]
  refine congrArg Json.obj (members_ext (ordered_applyMembers _ htarget) hafter fun name => ?_)
  rw [get?_applyMembers_eq_become hchanges]
  exact h name

/-! ## The patch between two objects -/

theorem ordered_removals {base : Members} (h : Ordered base) (desired : Members) :
    Ordered (removals base desired) :=
  List.pairwise_map.2 (List.Pairwise.filter _ h)

theorem get?_removals (base desired : Members) (name : String) :
    get? (removals base desired) name =
      if contains desired name then none else (get? base name).map fun _ => .null := by
  unfold removals
  induction base with
  | nil => simp
  | cons member base ih =>
      obtain ⟨first, value⟩ := member
      rw [get?_cons, List.filter_cons]
      by_cases hname : first = name
      · subst hname
        cases hcontains : contains desired first with
        | true =>
            rw [hcontains] at ih
            simpa using ih
        | false => simp [get?_cons]
      · rw [if_neg hname, ← ih]
        cases contains desired first with
        | true => rfl
        | false => simp [get?_cons, hname]

theorem ordered_changes (desired : List (String × Json)) (base : Members) {removals : Members}
    (h : Ordered removals) : Ordered (changes desired base removals) := by
  induction desired with
  | nil =>
      rw [changes]
      exact h
  | cons entry desired ih =>
      obtain ⟨name, value⟩ := entry
      rw [changes]
      cases change? value (get? base name) with
      | none => exact ih
      | some change => exact ordered_insert ih _ _

theorem get?_changes {desired : Members} (hdesired : (keys desired).Nodup) (base removals : Members)
    (name : String) :
    get? (changes desired base removals) name =
      match get? desired name with
      | none => get? removals name
      | some value => (change? value (get? base name)).or (get? removals name) := by
  induction desired with
  | nil => rw [changes, get?_nil]
  | cons entry desired ih =>
      obtain ⟨first, value⟩ := entry
      have hrest := ih (List.nodup_cons.1 hdesired).2
      rw [changes, get?_cons]
      by_cases hname : first = name
      · subst hname
        have hnone : get? desired first = none := get?_eq_none_of_nodup hdesired
        rw [hnone] at hrest
        cases hchange : change? value (get? base first) with
        | none => simp [hrest, hchange]
        | some change => simp [get?_insert, hchange]
      · rw [if_neg hname, ← hrest]
        cases change? value (get? base first) with
        | none => rfl
        | some change => rw [get?_insert, if_neg hname]

theorem ordered_diffMembers {base : Members} (h : Ordered base) (desired : Members) :
    Ordered (diffMembers base desired) :=
  ordered_changes desired base (ordered_removals h desired)

/-- What the patch between two objects has under a name: the change to the desired member, and null
for one that is not desired. -/
theorem get?_diffMembers {desired : Members} (hdesired : Ordered desired) (base : Members)
    (name : String) :
    get? (diffMembers base desired) name =
      match get? desired name with
      | none => (get? base name).map fun _ => .null
      | some value => change? value (get? base name) := by
  rw [diffMembers, get?_changes (nodup_keys_of_ordered hdesired), get?_removals]
  cases hvalue : get? desired name with
  | none => simp [contains, hvalue]
  | some value => simp [contains, hvalue]

/-! ## Changes between two values -/

theorem change?_none (value : Json) : change? value none = some value := by
  cases value <;> rw [change?]

/-- A value that is there already is not changed. -/
theorem change?_of_beq {value base : Json} (h : (base == value) = true) :
    change? value (some base) = none := by
  cases value with
  | obj desired =>
      cases base with
      | obj base => rw [change?, if_pos h]
      | _ => cases h
  | _ =>
      rw [change?]
      · exact if_pos h
      · simp

theorem change?_self (value : Json) : change? value (some value) = none :=
  change?_of_beq BEq.rfl

/-- Another value takes the place of the present one, unless both are objects. -/
theorem change?_of_not_isObject {value base : Json}
    (h : base.isObject = false ∨ value.isObject = false) (hne : (base == value) = false) :
    change? value (some base) = some value := by
  cases value with
  | obj desired =>
      cases base with
      | obj base => rcases h with h | h <;> cases h
      | _ =>
          rw [change?]
          · simp [hne]
          · simp
  | _ =>
      rw [change?]
      · simp [hne]
      · simp

/-- The patch between two objects says nothing about a member that they share, or that both lack. -/
theorem get?_diffMembers_of_eq {base desired : Members} (hdesired : Ordered desired) {name : String}
    (h : get? desired name = get? base name) : get? (diffMembers base desired) name = none := by
  rw [get?_diffMembers hdesired, h]
  cases get? base name with
  | none => rfl
  | some value => exact change?_self value

/-- The change from an object to an object is the patch between them, unless that is empty.  Objects
that are equal are no exception. -/
theorem change?_obj {base desired : Members} (hbase : Ordered base) (hdesired : Ordered desired) :
    change? (.obj desired) (some (.obj base)) =
      match diffMembers base desired with
      | [] => none
      | patch => some (.obj patch) := by
  rw [change?]
  split
  · next hequal =>
    have hempty : diffMembers base desired = [] := by
      refine members_ext (ordered_diffMembers hbase desired) ordered_nil fun name => ?_
      have hsame := Json.sameMember_of_beqMembers hequal name
      rw [get?_diffMembers hdesired]
      cases hvalue : get? desired name with
      | none =>
          rw [hvalue, Json.sameMember_none_right] at hsame
          rw [hsame]
          rfl
      | some value =>
          rw [hvalue, Json.sameMember_some_right] at hsame
          obtain ⟨present, hpresent, hbeq⟩ := hsame
          rw [hpresent]
          exact change?_of_beq hbeq
    rw [hempty]
  · rfl

/-- Where the change from an object to an object leads a third one. -/
theorem become_change?_obj {base desired : Members} (hbase : Ordered base)
    (hdesired : Ordered desired) (present : Members) :
    become (change? (.obj desired) (some (.obj base))) (some (.obj present)) =
      some (.obj (applyMembers (diffMembers base desired) present)) := by
  rw [change?_obj hbase hdesired]
  cases diffMembers base desired with
  | nil =>
      rw [applyMembers]
      rfl
  | cons change patch => simp [become, Json.isNull, apply]

end MergePatch

end ReplicaKeeper
