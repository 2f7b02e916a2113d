import ReplicaKeeper.Json.Basic

/-!
# Plain values

A value is plain when nothing in it is null or a floating point number and the names of every object
are in order.  Objects of the domain are written as plain values.  Plain values are well formed, and
the equality that programs compare values with is equality for them, `eq_of_beq`.
-/

set_option autoImplicit false

namespace ReplicaKeeper.Json

mutual

/-- No null and no floating point number at any depth, and names in order. -/
def Plain : Json → Prop
  | .null | .float _ => False
  | .arr items => PlainItems items
  | .obj members => Entries.Ordered members ∧ PlainMembers members
  | _ => True

def PlainItems : List Json → Prop
  | [] => True
  | item :: items => Plain item ∧ PlainItems items

def PlainMembers : List (String × Json) → Prop
  | [] => True
  | (_, value) :: members => Plain value ∧ PlainMembers members

end

/-! ## Plain parts -/

theorem plainItems_iff (items : List Json) : PlainItems items ↔ ∀ item ∈ items, item.Plain := by
  induction items with
  | nil => simp [PlainItems]
  | cons item items ih => simp [PlainItems, ih]

theorem plainMembers_iff (members : List (String × Json)) :
    PlainMembers members ↔ ∀ member ∈ members, member.2.Plain := by
  induction members with
  | nil => simp [PlainMembers]
  | cons member members ih => simp [PlainMembers, ih]

theorem PlainMembers.get? {members : Members} (h : PlainMembers members) {name : String}
    {value : Json} (hvalue : Entries.get? members name = some value) : value.Plain :=
  (plainMembers_iff members).1 h _ (Entries.mem_of_get?_eq_some hvalue)

/-- A plain value is not null. -/
theorem Plain.isNull_eq_false {value : Json} (h : value.Plain) : value.isNull = false := by
  cases value with
  | null => exact absurd h id
  | _ => rfl

/-- An array is plain when its items are. -/
theorem plain_arr_map {α : Type} {encode : α → Json} (xs : List α)
    (h : ∀ x, (encode x).Plain) : (arr (xs.map encode)).Plain := by
  refine (plainItems_iff _).2 fun item hitem => ?_
  obtain ⟨x, -, rfl⟩ := List.mem_map.1 hitem
  exact h x

/-- A field of a record that is absent or plain. -/
def PlainField (field : Option Json) : Prop := ∀ value, field = some value → value.Plain

@[simp] theorem plainField_some (value : Json) : PlainField (some value) ↔ value.Plain := by
  simp [PlainField]

theorem plainField_map {α : Type} {encode : α → Json} (h : ∀ x, (encode x).Plain) (x : Option α) :
    PlainField (x.map encode) := by
  intro value hvalue
  obtain ⟨given, -, rfl⟩ := Option.map_eq_some_iff.1 hvalue
  exact h given

/-- A record is plain when its field names are in order and its fields are plain. -/
theorem plain_record {fields : List (String × Option Json)}
    (hnames : (fields.map (·.1)).Pairwise (· < ·))
    (hvalues : ∀ field ∈ fields, PlainField field.2) : (record fields).Plain := by
  refine ⟨ordered_record hnames, (plainMembers_iff _).2 fun member hmember => ?_⟩
  obtain ⟨field, hfield, hsome⟩ := List.mem_filterMap.1 hmember
  obtain ⟨value, hvalue, rfl⟩ := Option.map_eq_some_iff.1 hsome
  exact hvalues field hfield value hvalue

/-- The first field of a record is found under its name if it is present. -/
theorem member?_record_cons (name other : String) (field : Option Json)
    (fields : List (String × Option Json)) :
    (record ((name, field) :: fields)).member? other =
      if name = other then field.or ((record fields).member? other)
      else (record fields).member? other := by
  cases field with
  | none => by_cases hname : name = other <;> simp [hname]
  | some value => by_cases hname : name = other <;> simp [hname]

/-! ## Plain values are well formed -/

mutual

theorem Plain.wellFormed : ∀ {value : Json}, value.Plain → value.WellFormed
  | .null, h | .float _, h => absurd h id
  | .bool _, _ | .int _, _ | .str _, _ => trivial
  | .arr _, h => PlainItems.wellFormed h
  | .obj _, h => ⟨h.1, PlainMembers.wellFormed h.2⟩

theorem PlainItems.wellFormed : ∀ {items : List Json}, PlainItems items → WellFormedItems items
  | [], _ => trivial
  | _ :: _, h => ⟨h.1.wellFormed, PlainItems.wellFormed h.2⟩

theorem PlainMembers.wellFormed : ∀ {members : List (String × Json)}, PlainMembers members →
    WellFormedMembers members
  | [], _ => trivial
  | (_, _) :: _, h => ⟨h.1.wellFormed, PlainMembers.wellFormed h.2⟩

end

theorem WellFormedMembers.get? {members : Members} (h : WellFormedMembers members) {name : String}
    {value : Json} (hvalue : Entries.get? members name = some value) : value.WellFormed := by
  induction members with
  | nil => cases hvalue
  | cons member members ih =>
      obtain ⟨k, v⟩ := member
      rw [Entries.get?_cons] at hvalue
      split at hvalue
      · cases hvalue
        exact h.1
      · exact ih h.2 hvalue

/-! ## Equality of plain values -/

mutual

/-- Values that compare equal are equal when one of them is plain. -/
theorem eq_of_beq : ∀ {left right : Json}, right.Plain → left.beq right = true → left = right
  | .arr _, .arr _, h, heq => by
      rw [beq] at heq
      rw [eq_of_beqItems h heq]
  | .obj _, .obj _, h, heq => by
      rw [beq] at heq
      rw [eq_of_beqMembers h.2 heq]
  | .null, right, h, heq | .bool _, right, h, heq | .int _, right, h, heq
  | .float _, right, h, heq | .str _, right, h, heq => by
      cases right <;> simp_all [beq, Plain]
  | .arr _, .null, h, _ | .arr _, .float _, h, _ | .obj _, .null, h, _
  | .obj _, .float _, h, _ => absurd h id

theorem eq_of_beqItems : ∀ {left right : List Json}, PlainItems right →
    beqItems left right = true → left = right
  | [], [], _, _ => rfl
  | _ :: _, _ :: _, h, heq => by
      simp only [beqItems, Bool.and_eq_true] at heq
      rw [eq_of_beq h.1 heq.1, eq_of_beqItems h.2 heq.2]
  | [], _ :: _, _, heq | _ :: _, [], _, heq => by simp [beqItems] at heq

theorem eq_of_beqMembers : ∀ {left right : List (String × Json)}, PlainMembers right →
    beqMembers left right = true → left = right
  | [], [], _, _ => rfl
  | (_, _) :: _, (_, _) :: _, h, heq => by
      simp only [beqMembers, Bool.and_eq_true] at heq
      obtain ⟨⟨hname, hvalue⟩, hrest⟩ := heq
      rw [LawfulBEq.eq_of_beq hname, eq_of_beq h.1 hvalue, eq_of_beqMembers h.2 hrest]
  | [], _ :: _, _, heq | _ :: _, [], _, heq => by simp [beqMembers] at heq

end

end ReplicaKeeper.Json
