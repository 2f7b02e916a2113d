import ReplicaKeeper.Decode.Basic
import ReplicaKeeper.Proofs.Json.Plain
import ReplicaKeeper.Proofs.Time.Text

/-!
# Reading what was written

`ReadsBack` ties an encoder to a decoder: what is written is plain, and it is read back up to the
fractions of seconds, unless a time lies outside the calendar.  For records this is proved field by
field: `members_record` gives the fields that are written, and `ReadsBack.lastOptionalField` what one
of them is read back as.
-/

set_option autoImplicit false

namespace ReplicaKeeper

variable {α : Type}

/-- What a decoder makes of what an encoder writes: the value with whole seconds, if its times fit
into the calendar. -/
structure ReadsBack (encode : α → Json) (decode : Decoder α) (fits : α → Prop) (whole : α → α) :
    Prop where
  plain : ∀ x, (encode x).Plain
  ok : ∀ {x}, fits x → (encode x).decodeAs decode = .ok (whole x)
  error : ∀ {x}, ¬ fits x → (encode x).decodeAs decode = .error (.time .outOfRange)

/-- A decoder reads back everything that an encoder writes. -/
abbrev ReadsBackAll (encode : α → Json) (decode : Decoder α) : Prop :=
  ReadsBack encode decode (fun _ => True) id

theorem ReadsBackAll.of_ok {encode : α → Json} {decode : Decoder α}
    (plain : ∀ x, (encode x).Plain) (ok : ∀ x, (encode x).decodeAs decode = .ok x) :
    ReadsBackAll encode decode where
  plain := plain
  ok _ := ok _
  error h := absurd trivial h

/-- Different values are written differently. -/
theorem ReadsBackAll.injective {encode : α → Json} {decode : Decoder α}
    (h : ReadsBackAll encode decode) {left right : α} (heq : encode left = encode right) :
    left = right := by
  have hleft : (encode left).decodeAs decode = .ok left := h.ok trivial
  have hright : (encode right).decodeAs decode = .ok right := h.ok trivial
  rw [heq, hright] at hleft
  exact (Except.ok.inj hleft).symm

theorem ok_bind {ε β γ : Type} (x : β) (next : β → Except ε γ) : (Except.ok x >>= next) = next x :=
  rfl

theorem error_bind {ε β γ : Type} (error : ε) (next : β → Except ε γ) :
    (Except.error error >>= next) = .error error := rfl

theorem bind_eq_ok {ε β γ : Type} {first : Except ε β} {next : β → Except ε γ} {z : γ} :
    (first >>= next) = .ok z ↔ ∃ y, first = .ok y ∧ next y = .ok z := by
  cases first with
  | error error => simp [error_bind]
  | ok y => simp [ok_bind]

theorem map_eq_ok {ε β γ : Type} {result : Except ε β} {f : β → γ} {z : γ} :
    result.map f = .ok z ↔ ∃ y, result = .ok y ∧ f y = z := by
  cases result with
  | error error => simp [Except.map]
  | ok y => simp [Except.map]

/-! ## Plain values -/

@[simp] theorem plain_str (s : String) : (Json.str s).Plain := trivial

@[simp] theorem plain_bool (b : Bool) : (Json.bool b).Plain := trivial

@[simp] theorem plain_ofInt32 (n : Int32) : (Json.ofInt32 n).Plain := trivial

@[simp] theorem plain_ofInt64 (n : Int64) : (Json.ofInt64 n).Plain := trivial

theorem readsBack_str : ReadsBackAll .str Decoder.string := .of_ok plain_str fun _ => rfl

theorem readsBack_bool : ReadsBackAll .bool Decoder.bool := .of_ok plain_bool fun _ => rfl

theorem readsBack_int32 : ReadsBackAll Json.ofInt32 Decoder.int32 := by
  refine .of_ok plain_ofInt32 fun n => ?_
  have hbounds : Int32.minValue.toInt ≤ n.toInt ∧ n.toInt ≤ Int32.maxValue.toInt :=
    ⟨n.minValue_le_toInt, n.toInt_le⟩
  change (Decoder.integer _ _ _ (.int n.toInt)).map Int32.ofInt = _
  rw [Decoder.integer, if_pos hbounds]
  exact congrArg Except.ok n.ofInt_toInt

theorem readsBack_int64 : ReadsBackAll Json.ofInt64 Decoder.int64 := by
  refine .of_ok plain_ofInt64 fun n => ?_
  have hbounds : Int64.minValue.toInt ≤ n.toInt ∧ n.toInt ≤ Int64.maxValue.toInt :=
    ⟨n.minValue_le_toInt, n.toInt_le⟩
  change (Decoder.integer _ _ _ (.int n.toInt)).map Int64.ofInt = _
  rw [Decoder.integer, if_pos hbounds]
  exact congrArg Except.ok n.ofInt_toInt

/-! ## Lists -/

theorem documents_map (encode : α → Json) (xs : List α) :
    Json.documents (xs.map encode) = xs.map fun x => (encode x).document := by
  induction xs with
  | nil => rfl
  | cons x xs ih => rw [List.map_cons, List.map_cons, Json.documents, ih]

theorem mapM_eq_ok {β : Type} {read : β → Except DecodeError α} {write : α → β} (xs : List α)
    (h : ∀ x, read (write x) = .ok x) : (xs.map write).mapM read = .ok xs := by
  induction xs with
  | nil => rfl
  | cons x xs ih =>
      rw [List.map_cons, List.mapM_cons, h, ih]
      rfl

theorem ReadsBack.list {encode : α → Json} {decode : Decoder α}
    (h : ReadsBackAll encode decode) :
    ReadsBackAll (fun xs : List α => .arr (xs.map encode)) (.list decode) := by
  refine .of_ok (fun xs => Json.plain_arr_map xs h.plain) fun xs => ?_
  change (Json.documents (xs.map encode)).mapM decode = _
  rw [documents_map]
  exact mapM_eq_ok xs fun x => h.ok trivial

/-! ## Records -/

/-- The fields of a record that are written. -/
def present (fields : List (String × Option Json)) : Fields :=
  fields.filterMap fun field => field.2.map fun value => (field.1, value.document)

theorem mapM_named (members : List (String × Json)) :
    (Json.namedDocuments members).mapM Decoder.named =
      .ok (members.map fun member => (member.1, member.2.document)) := by
  induction members with
  | nil => rfl
  | cons member members ih =>
      rw [Json.namedDocuments, List.mapM_cons, ih]
      rfl

/-- A record is read as the fields that are written. -/
theorem members_record (expected : String) (fields : List (String × Option Json)) :
    Decoder.members expected (Json.record fields).document = .ok (present fields) := by
  change (Json.namedDocuments _).mapM Decoder.named = _
  rw [mapM_named, List.map_filterMap, present]
  congr 2
  funext field
  cases field.2 <;> rfl

@[simp] theorem under_present_nil (name : String) : (present []).under name = [] := rfl

@[simp] theorem under_present_cons (first name : String) (value : Option Json)
    (fields : List (String × Option Json)) :
    (present ((first, value) :: fields)).under name =
      if first = name then (value.map Json.document).toList ++ (present fields).under name
      else (present fields).under name := by
  unfold present Fields.under
  cases value with
  | none => simp
  | some value => by_cases hname : first = name <;> simp [hname]

theorem optional_document {value : Json} (h : value.isNull = false) (decode : Decoder α) :
    Decoder.optional decode value.document = (value.decodeAs decode).map some := by
  cases value with
  | null => cases h
  | _ => rfl

/-- What a field is read as that is written once. -/
theorem lastOptionalField_of_plain {value : Json} (h : value.Plain) {fields : Fields} {name : String}
    (hunder : fields.under name = [value.document]) (decode : Decoder α) :
    fields.lastOptionalField name decode = (value.decodeAs decode).map some := by
  unfold Fields.lastOptionalField Fields.lastField
  rw [hunder, List.mapM_cons, optional_document h.isNull_eq_false]
  cases value.decodeAs decode <;> rfl

/-- What a field is read back as that is written at most once. -/
theorem ReadsBack.lastOptionalField {encode : α → Json} {decode : Decoder α} {fits : α → Prop}
    {whole : α → α} (h : ReadsBack encode decode fits whole) {fields : Fields} {name : String}
    (x : Option α) (hunder : fields.under name = ((x.map encode).map Json.document).toList) :
    ((∀ given, x = some given → fits given) →
        fields.lastOptionalField name decode = .ok (x.map whole)) ∧
      ((¬ ∀ given, x = some given → fits given) →
        fields.lastOptionalField name decode = .error (.time .outOfRange)) := by
  cases x with
  | none =>
      unfold Fields.lastOptionalField Fields.lastField
      rw [hunder]
      exact ⟨fun _ => rfl, fun hnot => absurd (by simp) hnot⟩
  | some x =>
      rw [lastOptionalField_of_plain (h.plain x) hunder]
      refine ⟨fun hfits => ?_, fun hnot => ?_⟩
      · rw [h.ok (hfits x rfl)]
        rfl
      · rw [h.error fun hfits => hnot fun given hgiven => by cases hgiven; exact hfits]
        rfl

/-- A field without times is always read back. -/
theorem ReadsBackAll.lastOptionalField {encode : α → Json} {decode : Decoder α}
    (h : ReadsBackAll encode decode) {fields : Fields} {name : String} (x : Option α)
    (hunder : fields.under name = ((x.map encode).map Json.document).toList) :
    fields.lastOptionalField name decode = .ok x := by
  have hok := (ReadsBack.lastOptionalField h x hunder).1 fun _ _ => trivial
  rwa [Option.map_id, id] at hok

end ReplicaKeeper
