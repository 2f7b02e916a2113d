import ReplicaKeeper.Proofs.Json.Plain

/-!
# Equality of values by look-ups

`Json.beq` compares the members of two objects position by position.  For members in order that is
the same as comparing what is found under every name, `beq_obj_iff`, so that nothing else has to
know how members are listed.

`member_induction` is the induction over the members of a value: arrays count as leaves, as patches
replace them as a whole.
-/

set_option autoImplicit false

namespace ReplicaKeeper

open Entries

/-! ## Ordered members -/

theorem ordered_insert {members : Members} (h : Ordered members) (name : String) (value : Json) :
    Ordered (insert name value members) := by
  refine h.insert String.lt_trans (fun hlt hne => ?_) name value
  exact Std.not_le.1 fun hle => hne (String.le_antisymm (Std.not_lt.1 hlt) hle)

/-- No name occurs twice among ordered members. -/
theorem nodup_keys_of_ordered {members : Members} (h : Ordered members) : (keys members).Nodup := by
  refine List.pairwise_map.2 (h.imp fun hlt heq => ?_)
  rw [heq] at hlt
  exact String.lt_irrefl _ hlt

/-- Ordered members with the same look-ups are the same. -/
theorem members_ext {left right : Members} (hleft : Ordered left) (hright : Ordered right)
    (h : ∀ name, get? left name = get? right name) : left = right :=
  hleft.ext String.lt_trans (String.lt_irrefl _) hright h

theorem get?_eq_none_of_nodup {name : String} {value : Json} {members : Members}
    (h : (keys ((name, value) :: members)).Nodup) : get? members name = none := by
  rw [get?_eq_none_iff]
  exact (List.nodup_cons.1 h).1

namespace Json

theorem membersOrEmpty_eq_nil {value : Json} (h : value.isObject = false) :
    value.membersOrEmpty = [] := by
  cases value with
  | obj members => cases h
  | _ => rfl

theorem isNull_eq_true_iff (value : Json) : value.isNull = true ↔ value = .null := by
  cases value <;> simp [isNull]

theorem isNull_eq_false_iff (value : Json) : value.isNull = false ↔ value ≠ .null := by
  rw [← Bool.not_eq_true, isNull_eq_true_iff]

/-- Two values are two objects, or one of them is none. -/
theorem objects_or_not (left right : Json) :
    (∃ members others, left = obj members ∧ right = obj others) ∨
      left.isObject = false ∨ right.isObject = false := by
  cases left <;> cases right <;> simp [isObject]

/-! ## Induction over members -/

theorem sizeOf_lt_of_member? {value child : Json} {name : String}
    (h : value.member? name = some child) : sizeOf child < sizeOf value := by
  cases value with
  | obj members =>
      have hmember : sizeOf (name, child) < sizeOf members :=
        List.sizeOf_lt_of_mem (mem_of_get?_eq_some h)
      simp only [Prod.mk.sizeOf_spec] at hmember
      simp only [obj.sizeOf_spec]
      omega
  | _ => cases h

/-- What holds of a value as soon as it holds of all its members holds of every value. -/
theorem member_induction {motive : Json → Prop}
    (step : ∀ value : Json,
      (∀ name child, value.member? name = some child → motive child) → motive value)
    (value : Json) : motive value :=
  step value fun _ child _ => member_induction step child
termination_by sizeOf value
decreasing_by exact sizeOf_lt_of_member? ‹_›

theorem WellFormed.member? {value child : Json} {name : String} (h : value.WellFormed)
    (hchild : value.member? name = some child) : child.WellFormed := by
  cases value with
  | obj members => exact WellFormedMembers.get? h.2 hchild
  | _ => cases hchild

theorem WellFormed.ordered {members : Members} (h : (obj members).WellFormed) : Ordered members :=
  h.1

/-! ## Parts of well formed values -/

theorem WellFormed.ordered_membersOrEmpty {value : Json} (h : value.WellFormed) :
    Ordered value.membersOrEmpty := by
  cases value with
  | obj members => exact h.ordered
  | _ => exact ordered_nil

theorem wellFormedItems_iff (items : List Json) :
    WellFormedItems items ↔ ∀ item ∈ items, item.WellFormed := by
  induction items with
  | nil => simp [WellFormedItems]
  | cons item items ih => simp [WellFormedItems, ih]

theorem wellFormedMembers_iff (members : Members) :
    WellFormedMembers members ↔ ∀ member ∈ members, member.2.WellFormed := by
  induction members with
  | nil => simp [WellFormedMembers]
  | cons member members ih => simp [WellFormedMembers, ih]

theorem WellFormedMembers.insert {members : Members} (h : WellFormedMembers members) (name : String)
    {value : Json} (hvalue : value.WellFormed) :
    WellFormedMembers (Entries.insert name value members) := by
  refine (wellFormedMembers_iff _).2 fun member hmember => ?_
  rcases eq_or_mem_of_mem_insert hmember with rfl | hmember
  · exact hvalue
  · exact (wellFormedMembers_iff _).1 h member hmember

/-- Members in order are well formed when all that is found among them is. -/
theorem wellFormed_of_get? {members : Members} (h : Ordered members)
    (hvalues : ∀ name value, get? members name = some value → value.WellFormed) :
    (obj members).WellFormed := by
  refine ⟨h, (wellFormedMembers_iff _).2 fun member hmember => ?_⟩
  exact hvalues member.1 member.2 (get?_of_mem (nodup_keys_of_ordered h) hmember)

/-! ## Every value equals itself -/

mutual

theorem beq_refl : ∀ value : Json, value.beq value = true
  | .null => rfl
  | .bool _ | .int _ | .str _ => by simp [beq]
  | .float _ => by simp [beq, Binary64.beq]
  | .arr items => beqItems_refl items
  | .obj members => beqMembers_refl members

theorem beqItems_refl : ∀ items : List Json, beqItems items items = true
  | [] => rfl
  | item :: items => by simp [beqItems, beq_refl item, beqItems_refl items]

theorem beqMembers_refl : ∀ members : List (String × Json), beqMembers members members = true
  | [] => rfl
  | (_, value) :: members => by simp [beqMembers, beq_refl value, beqMembers_refl members]

end

instance : ReflBEq Json := ⟨fun {value} => beq_refl value⟩

/-! ## Equality of objects -/

/-- What is found under a name in two objects is equal. -/
def SameMember : Option Json → Option Json → Prop
  | none, none => True
  | some left, some right => (left == right) = true
  | _, _ => False

theorem sameMember_none_right {found : Option Json} : SameMember found none ↔ found = none := by
  cases found <;> simp [SameMember]

theorem sameMember_some_right {found : Option Json} {value : Json} :
    SameMember found (some value) ↔
      ∃ present, found = some present ∧ (present == value) = true := by
  cases found <;> simp [SameMember]

theorem sameMember_some_left {found : Option Json} {value : Json} :
    SameMember (some value) found ↔
      ∃ present, found = some present ∧ (value == present) = true := by
  cases found <;> simp [SameMember]

/-- No name comes before the first one. -/
theorem first_le_of_get? {first name : String} {head value : Json} {members : Members}
    (h : Ordered ((first, head) :: members))
    (hvalue : get? ((first, head) :: members) name = some value) : first ≤ name := by
  rcases List.mem_cons.1 (mem_of_get?_eq_some hvalue) with heq | hmember
  · cases heq
    exact String.le_refl _
  · exact Std.le_of_lt ((List.pairwise_cons.1 h).1 _ hmember)

theorem sameMember_of_beqMembers : ∀ {left right : Members}, beqMembers left right = true →
    ∀ name, SameMember (get? left name) (get? right name)
  | [], [], _, _ => trivial
  | (first, a) :: left, (_, b) :: right, h, name => by
      simp only [beqMembers, Bool.and_eq_true, beq_iff_eq] at h
      obtain ⟨⟨rfl, hvalue⟩, hrest⟩ := h
      rw [get?_cons, get?_cons]
      by_cases hname : first = name
      · rw [if_pos hname, if_pos hname]
        exact hvalue
      · rw [if_neg hname, if_neg hname]
        exact sameMember_of_beqMembers hrest name
  | [], _ :: _, h, _ | _ :: _, [], h, _ => by simp [beqMembers] at h

theorem beqMembers_of_sameMember : ∀ {left right : Members}, Ordered left → Ordered right →
    (∀ name, SameMember (get? left name) (get? right name)) → beqMembers left right = true
  | [], [], _, _, _ => rfl
  | [], (k, _) :: _, _, _, h => by simpa [get?_cons, SameMember] using h k
  | (j, _) :: _, [], _, _, h => by simpa [get?_cons, SameMember] using h j
  | (j, a) :: left, (k, b) :: right, hleft, hright, h => by
      -- Each first name is found on the other side, so neither comes before the other.
      have hname : j = k := by
        have hj := h j
        have hk := h k
        rw [get?_cons, if_pos rfl, sameMember_some_left] at hj
        rw [get?_cons k, if_pos rfl, sameMember_some_right] at hk
        obtain ⟨_, hfoundj, _⟩ := hj
        obtain ⟨_, hfoundk, _⟩ := hk
        exact String.le_antisymm (first_le_of_get? hleft hfoundk) (first_le_of_get? hright hfoundj)
      subst hname
      have hvalue : (a == b) = true := by simpa [get?_cons, SameMember] using h j
      have hrest : beqMembers left right = true := by
        refine beqMembers_of_sameMember hleft.of_cons hright.of_cons fun name => ?_
        by_cases hname : j = name
        · subst hname
          rw [get?_eq_none_of_nodup (nodup_keys_of_ordered hleft),
            get?_eq_none_of_nodup (nodup_keys_of_ordered hright)]
          trivial
        · simpa [get?_cons, hname] using h name
      rw [beqMembers, hrest, Bool.and_true, BEq.rfl, Bool.true_and]
      exact hvalue

/-- Objects with their names in order are equal when what they have under every name is. -/
theorem beq_obj_iff {left right : Members} (hleft : Ordered left) (hright : Ordered right) :
    (obj left == obj right) = true ↔
      ∀ name, SameMember (get? left name) (get? right name) :=
  ⟨sameMember_of_beqMembers, beqMembers_of_sameMember hleft hright⟩

theorem isObject_eq_of_beq {left right : Json} (h : (left == right) = true) :
    left.isObject = right.isObject := by
  cases left <;> cases right <;> first | rfl | cases h

theorem eq_null_of_beq {value : Json} (h : (value == null) = true) : value = null := by
  cases value with
  | null => rfl
  | _ => cases h

end Json

end ReplicaKeeper
