import ReplicaKeeper.Object.Labels
import ReplicaKeeper.Proofs.Decode.ReadsBack
import ReplicaKeeper.Proofs.MergePatch

/-!
# Reading again under the same patch

A patch that meets the written form of a value leaves something that need not be a written form: it
may hold unknown members and fractions of seconds, and lack what is always written.  Still, once it
was read as a value, the same patch on the written form of that value is read as this value again,
`Settles`.  For records this is proved field by field: `MeetsBoth.field` is for a field that is
written when it is present, `MeetsBoth.writtenField` for one that is always written.
-/

set_option autoImplicit false

namespace ReplicaKeeper

open Entries MergePatch

variable {α : Type}

/-! ## Fields of objects -/

/-- The fields of an object. -/
def fieldsOf (members : Members) : Fields :=
  members.map fun member => (member.1, member.2.document)

theorem members_obj (expected : String) (members : Members) :
    Decoder.members expected (Json.obj members).document = .ok (fieldsOf members) :=
  mapM_named members

theorem under_fieldsOf {members : Members} (h : Ordered members) (name : String) :
    (fieldsOf members).under name = ((get? members name).map Json.document).toList := by
  induction members with
  | nil => rfl
  | cons member members ih =>
      obtain ⟨first, value⟩ := member
      have hrest := ih h.of_cons
      unfold fieldsOf Fields.under at hrest ⊢
      rw [get?_cons, List.map_cons]
      by_cases hname : first = name
      · subst hname
        rw [get?_eq_none_of_nodup (nodup_keys_of_ordered h)] at hrest
        simpa using hrest
      · simpa [hname] using hrest

/-- What is read for a field: nothing where it is absent or null. -/
def readField (decode : Decoder α) : Option Json → Except DecodeError (Option α)
  | none => .ok none
  | some value => decode.optional value.document

theorem lastOptionalField_fieldsOf {members : Members} (h : Ordered members) (name : String)
    (decode : Decoder α) :
    (fieldsOf members).lastOptionalField name decode = readField decode (get? members name) := by
  unfold Fields.lastOptionalField Fields.lastField
  rw [under_fieldsOf h]
  cases get? members name with
  | none => rfl
  | some value =>
      change (([value.document].mapM decode.optional).map List.getLast?).map Option.join = _
      rw [List.mapM_cons, readField]
      cases decode.optional value.document <;> rfl

theorem readField_some {value : Json} (h : value.isNull = false) (decode : Decoder α) :
    readField decode (some value) = (value.decodeAs decode).map some :=
  optional_document h decode

theorem exists_of_readField {value : Json} (hnull : value.isNull = false) {decode : Decoder α}
    {x : Option α} (h : readField decode (some value) = .ok x) :
    ∃ given, x = some given ∧ value.decodeAs decode = .ok given := by
  rw [readField_some hnull] at h
  cases hgiven : value.decodeAs decode with
  | error error =>
      rw [hgiven] at h
      cases h
  | ok given =>
      rw [hgiven] at h
      exact ⟨given, (Except.ok.inj h).symm, rfl⟩

/-! ## Reading again under the same patch -/

/-- What was read under a patch is read again when the same patch meets it in writing.  The value
that the patch met at first, if there was one, plays no part in that. -/
structure Settles (encode : α → Json) (decode : Decoder α) : Prop where
  again : ∀ {patch : Json} {x : α}, patch.WellFormed → ∀ met : Option α,
    (apply patch ((met.map encode).getD .null)).decodeAs decode = .ok x →
      (apply patch (encode x)).decodeAs decode = .ok x
  /-- Without a patch a second reading changes nothing any more. -/
  unpatched : ∀ {x y : α}, (encode x).decodeAs decode = .ok y → (encode y).decodeAs decode = .ok y
  notNull : ∀ x, (encode x).isNull = false

theorem ReadsBack.unpatched {encode : α → Json} {decode : Decoder α} {fits : α → Prop}
    {whole : α → α} (h : ReadsBack encode decode fits whole)
    (hwhole : ∀ x, encode (whole x) = encode x) {x y : α}
    (hread : (encode x).decodeAs decode = .ok y) : (encode y).decodeAs decode = .ok y := by
  by_cases hfits : fits x
  · have hsame := hread
    rw [h.ok hfits] at hsame
    obtain rfl := Except.ok.inj hsame
    rw [hwhole]
    exact hread
  · rw [h.error hfits] at hread
    cases hread

/-- A value that is not written as an object is settled by any patch. -/
theorem ReadsBack.settles_of_not_obj {encode : α → Json} {decode : Decoder α} {fits : α → Prop}
    {whole : α → α} (h : ReadsBack encode decode fits whole)
    (hwhole : ∀ x, encode (whole x) = encode x)
    (hobj : ∀ members x, decode (.obj members) ≠ .ok x) : Settles encode decode where
  again {patch x} _ met hread := by
    cases patch with
    | obj changes =>
        rw [apply_obj] at hread
        exact absurd hread (hobj _ x)
    | _ =>
        rw [apply_of_not_isObject rfl] at hread ⊢
        exact hread
  unpatched := h.unpatched hwhole
  notNull x := (h.plain x).isNull_eq_false

theorem ReadsBackAll.settles_of_not_obj {encode : α → Json} {decode : Decoder α}
    (h : ReadsBackAll encode decode) (hobj : ∀ members x, decode (.obj members) ≠ .ok x) :
    Settles encode decode :=
  ReadsBack.settles_of_not_obj h (fun _ => rfl) hobj

namespace Settles

variable {encode : α → Json} {decode : Decoder α}

/-- What is read for a field under a patch is read for it again.  `present` is what is written for
the field afterwards. -/
theorem readField_again (h : Settles encode decode) {change : Option Json}
    (hchange : ∀ value, change = some value → value.WellFormed) {met x : Option α}
    {present : Option Json} (hsome : ∀ given, x = some given → present = some (encode given))
    (hnone : x = none → met = none → present = none)
    (hread : readField decode (become change (met.map encode)) = .ok x) :
    readField decode (become change present) = .ok x := by
  cases change with
  | none =>
      change readField decode (met.map encode) = _ at hread
      change readField decode present = _
      cases met with
      | none =>
          obtain rfl := Except.ok.inj hread
          rw [hnone rfl rfl]
          rfl
      | some met =>
          obtain ⟨given, rfl, hgiven⟩ := exists_of_readField (h.notNull met) hread
          rw [hsome given rfl, readField_some (h.notNull given), h.unpatched hgiven]
          rfl
  | some value =>
      cases hnull : value.isNull with
      | true =>
          rw [become, if_pos hnull] at hread ⊢
          exact hread
      | false =>
          rw [become_some hnull] at hread ⊢
          obtain ⟨given, rfl, hgiven⟩ := exists_of_readField (isNull_apply hnull _) hread
          rw [hsome given rfl, Option.getD_some, readField_some (isNull_apply hnull _),
            h.again (hchange value rfl) met hgiven]
          rfl

end Settles

/-! ## Fields under a patch -/

/-- The fields of an object after a patch. -/
def fieldsUnder (changes : Members) (value : Json) : Fields :=
  fieldsOf (applyMembers changes value.membersOrEmpty)

/-- A patch meets one object, and then another one. -/
structure MeetsBoth (changes : Members) (first second : Json) : Prop where
  patch : (Json.obj changes).WellFormed
  first : Ordered first.membersOrEmpty
  second : Ordered second.membersOrEmpty

theorem lastOptionalField_fieldsUnder {changes : Members} {value : Json}
    (hchanges : (Json.obj changes).WellFormed) (hvalue : Ordered value.membersOrEmpty)
    (name : String) (decode : Decoder α) :
    (fieldsUnder changes value).lastOptionalField name decode =
      readField decode (become (get? changes name) (value.member? name)) := by
  unfold fieldsUnder
  rw [lastOptionalField_fieldsOf (ordered_applyMembers _ hvalue),
    get?_applyMembers_eq_become hchanges.ordered, Json.member?]

theorem members_under (expected : String) (changes : Members) (value : Json) :
    Decoder.members expected (Json.obj (applyMembers changes value.membersOrEmpty)).document =
      .ok (fieldsUnder changes value) :=
  members_obj expected _

/-- A plain value has its members in order. -/
theorem ordered_of_plain {value : Json} (h : value.Plain) : Ordered value.membersOrEmpty := by
  cases value with
  | obj members => exact h.1
  | _ => exact ordered_nil

/-- A value that is written as an object is settled by every patch when it is by those that are
objects themselves. -/
theorem ReadsBack.settles_of_obj {encode : α → Json} {decode : Decoder α} {fits : α → Prop}
    {whole : α → α} (h : ReadsBack encode decode fits whole)
    (hwhole : ∀ x, encode (whole x) = encode x)
    (hagain : ∀ {changes : Members} {x : α} (met : Option α),
      MeetsBoth changes ((met.map encode).getD .null) (encode x) →
        (Json.obj (applyMembers changes ((met.map encode).getD .null).membersOrEmpty)).decodeAs
            decode = .ok x →
          (Json.obj (applyMembers changes (encode x).membersOrEmpty)).decodeAs decode = .ok x) :
    Settles encode decode where
  again {patch x} hpatch met hread := by
    cases patch with
    | obj changes =>
        rw [apply_obj] at hread ⊢
        refine hagain met ⟨hpatch, ?_, ordered_of_plain (h.plain x)⟩ hread
        cases met with
        | none => exact ordered_nil
        | some met => exact ordered_of_plain (h.plain met)
    | _ =>
        rw [apply_of_not_isObject rfl] at hread ⊢
        exact hread
  unpatched := h.unpatched hwhole
  notNull x := (h.plain x).isNull_eq_false

namespace MeetsBoth

variable {ρ : Type} {write : ρ → Json} {met : Option ρ} {record : ρ} {changes : Members}
  {encode : α → Json} {decode : Decoder α} {name : String} {x : Option α}

/-- A field that is written when it is present is read as before. -/
theorem field (h : MeetsBoth changes ((met.map write).getD .null) (write record))
    (hsettles : Settles encode decode) (get : ρ → Option α)
    (hwrite : ∀ record, (write record).member? name = (get record).map encode)
    (hread : (fieldsUnder changes ((met.map write).getD .null)).lastOptionalField name decode =
      .ok (get record)) :
    (fieldsUnder changes (write record)).lastOptionalField name decode = .ok (get record) := by
  have hmet : ((met.map write).getD .null).member? name = (met.bind get).map encode := by
    cases met with
    | none => rfl
    | some met => exact hwrite met
  rw [lastOptionalField_fieldsUnder h.patch h.first, hmet] at hread
  rw [lastOptionalField_fieldsUnder h.patch h.second, hwrite]
  refine hsettles.readField_again (fun _ hvalue => h.patch.member? hvalue) ?_ ?_ hread
  · intro given hgiven
    rw [hgiven]
    rfl
  · intro hnone _
    rw [hnone]
    rfl

/-- A field that is always written may have been absent at first, where it is read as `given`. -/
theorem writtenField (h : MeetsBoth changes ((met.map write).getD .null) (write record))
    (hsettles : Settles encode decode) (get : ρ → α)
    (hwrite : ∀ record, (write record).member? name = some (encode (get record))) {given : α}
    (hgiven : (encode given).decodeAs decode = .ok given) (hrecord : get record = x.getD given)
    (hread : (fieldsUnder changes ((met.map write).getD .null)).lastOptionalField name decode =
      .ok x) :
    ∃ y, (fieldsUnder changes (write record)).lastOptionalField name decode = .ok y ∧
      y.getD given = x.getD given := by
  have hmet : ((met.map write).getD .null).member? name = (met.map get).map encode := by
    cases met with
    | none => rfl
    | some met => exact hwrite met
  rw [lastOptionalField_fieldsUnder h.patch h.first, hmet] at hread
  rw [lastOptionalField_fieldsUnder h.patch h.second, hwrite, hrecord]
  cases x with
  | some x =>
      refine ⟨some x, ?_, rfl⟩
      refine hsettles.readField_again (fun _ hvalue => h.patch.member? hvalue) ?_ ?_ hread
      · rintro _ ⟨⟩
        rfl
      · rintro ⟨⟩
  | none =>
      -- The field was absent, or the patch removes it.
      rw [Option.getD_none]
      cases hchange : get? changes name with
      | none =>
          refine ⟨some given, ?_, rfl⟩
          change readField decode (some (encode given)) = _
          rw [readField_some (hsettles.notNull given), hgiven]
          rfl
      | some value =>
          rw [hchange] at hread
          cases hnull : value.isNull with
          | true => exact ⟨none, by rw [become, if_pos hnull]; rfl, rfl⟩
          | false =>
              rw [become_some hnull] at hread
              obtain ⟨found, hfound, -⟩ := exists_of_readField (isNull_apply hnull _) hread
              cases hfound

end MeetsBoth

end ReplicaKeeper
