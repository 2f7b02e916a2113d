import ReplicaKeeper.Proofs.Decode.Showing
import ReplicaKeeper.Proofs.Json.Equality

/-!
# Round trips

`RoundTrips` is for values that may be read from some document, in whatever form: they can be
written, what is written is read as the value again, up to what is never written, and it is written
alike from then on.  Unlike `ReadsBack` this is not about all values of a type, and what is written
may hold any part that was read, null and numbers included.

`Faithful` ties this to documents: what is read is what the document shows, it may be written, and
what is written shows it again.
-/

set_option autoImplicit false

namespace ReplicaKeeper

open Entries

variable {α : Type}

/-! ## Values that may be absent -/

/-- A value that is present has the property. -/
def Within (property : α → Prop) (x : Option α) : Prop := ∀ given, x = some given → property given

@[simp] theorem within_some {property : α → Prop} {x : α} :
    Within property (some x) ↔ property x := by
  simp [Within]

theorem Within.map {β : Type} {property : α → Prop} {result : β → Prop} {x : Option α}
    (h : Within property x) {f : α → β} (hf : ∀ x, property x → result (f x)) :
    Within result (x.map f) := by
  intro y hy
  obtain ⟨given, hgiven, rfl⟩ := Option.map_eq_some_iff.1 hy
  exact hf given (h given hgiven)

section Shown

variable {shows : Showing α} {property : α → Prop} {part : Option Document}

theorem Within.of_shown (h : ∀ document x, shows document x → property x) {x : Option α}
    (hx : Option.Rel shows part x) : Within property x := by
  cases hx with
  | none => rintro given ⟨⟩
  | some hx => exact within_some.2 (h _ _ hx)

theorem Showing.required.of_shown (h : ∀ document x, shows document x → property x) {x : α}
    (hx : shows.required part x) : property x :=
  within_some.1 (Within.of_shown h hx)

theorem Showing.list.of_shown (h : ∀ document x, shows document x → property x)
    {document : Document} {xs : List α} (hxs : Showing.list shows document xs) :
    ∀ x ∈ xs, property x := by
  obtain ⟨items, -, hall⟩ := hxs
  induction hall with
  | nil => exact fun x hx => absurd hx List.not_mem_nil
  | cons hfirst _ ih => exact List.forall_mem_cons.2 ⟨h _ _ hfirst, ih⟩

/-- An absent list has no elements. -/
theorem Showing.orElse.of_shown (h : ∀ document x, shows document x → property x) {xs : List α}
    (hxs : Showing.orElse (.list shows) [] part xs) : ∀ x ∈ xs, property x := by
  obtain ⟨found, hfound, rfl⟩ := hxs
  cases hfound with
  | none => exact fun x hx => absurd hx List.not_mem_nil
  | some hlist => exact Showing.list.of_shown h hlist

end Shown

/-! ## Well formed values -/

namespace Json

/-- A record is well formed when its names are in order and its fields are well formed. -/
theorem wellFormed_record {fields : List (String × Option Json)}
    (hnames : (fields.map (·.1)).Pairwise (· < ·))
    (hvalues : ∀ field ∈ fields, Within WellFormed field.2) : (record fields).WellFormed := by
  refine ⟨ordered_record hnames, (wellFormedMembers_iff _).2 fun member hmember => ?_⟩
  obtain ⟨field, hfield, hsome⟩ := List.mem_filterMap.1 hmember
  obtain ⟨value, hvalue, rfl⟩ := Option.map_eq_some_iff.1 hsome
  exact hvalues field hfield value hvalue

theorem PlainField.wellFormed {field : Option Json} (h : PlainField field) :
    Within WellFormed field :=
  fun value hvalue => (h value hvalue).wellFormed

theorem wellFormed_ofPairs {pairs : Members} (h : WellFormedMembers pairs) :
    (obj (Entries.ofPairs pairs)).WellFormed := by
  have hfold : ∀ {start : Members}, (obj start).WellFormed →
      (obj (pairs.foldl (fun members pair => Entries.insert pair.1 pair.2 members)
        start)).WellFormed := by
    induction pairs with
    | nil => exact id
    | cons pair pairs ih =>
        intro start hstart
        exact ih h.2 ⟨ordered_insert hstart.1 pair.1 pair.2, hstart.2.insert pair.1 h.1⟩
  exact hfold ⟨ordered_nil, trivial⟩

end Json

namespace Document

mutual

/-- The value of a document is well formed. -/
theorem wellFormed_of_toJson? : ∀ {document : Document} {value : Json},
    document.toJson? = some value → value.WellFormed
  | .null, _, h | .bool _, _, h | .int _, _, h | .float _, _, h | .str _, _, h => by
      simp only [toJson?, Option.some.injEq] at h
      subst h
      trivial
  | .arr items, _, h => by
      rw [toJson?] at h
      obtain ⟨values, hvalues, rfl⟩ := Option.map_eq_some_iff.1 h
      exact wellFormed_of_itemValues? hvalues
  | .obj members, _, h => by
      rw [toJson?] at h
      obtain ⟨pairs, hpairs, rfl⟩ := Option.map_eq_some_iff.1 h
      exact Json.wellFormed_ofPairs (wellFormed_of_memberValues? hpairs)
  | .unreadable, _, h => by simp [toJson?] at h

theorem wellFormed_of_itemValues? : ∀ {items : List Document} {values : List Json},
    itemValues? items = some values → Json.WellFormedItems values
  | [], _, h => by
      obtain rfl := Option.some.inj h
      trivial
  | item :: items, _, h => by
      rw [itemValues?] at h
      obtain ⟨value, hvalue, h⟩ := Option.bind_eq_some_iff.1 h
      obtain ⟨values, hvalues, h⟩ := Option.bind_eq_some_iff.1 h
      obtain rfl := Option.some.inj h
      exact ⟨wellFormed_of_toJson? hvalue, wellFormed_of_itemValues? hvalues⟩

theorem wellFormed_of_memberValues? :
    ∀ {members : List (Option String × Document)} {pairs : Members},
    memberValues? members = some pairs → Json.WellFormedMembers pairs
  | [], _, h => by
      obtain rfl := Option.some.inj h
      trivial
  | (name, member) :: members, _, h => by
      rw [memberValues?] at h
      obtain ⟨name, -, h⟩ := Option.bind_eq_some_iff.1 h
      obtain ⟨value, hvalue, h⟩ := Option.bind_eq_some_iff.1 h
      obtain ⟨pairs, hpairs, h⟩ := Option.bind_eq_some_iff.1 h
      obtain rfl := Option.some.inj h
      exact ⟨wellFormed_of_toJson? hvalue, wellFormed_of_memberValues? hpairs⟩

end

theorem isReadable_document {value : Json} (h : value.WellFormed) :
    value.document.isReadable = true := by
  rw [isReadable, toJson?_document h]
  rfl

end Document

/-- The fields of a well formed record are readable. -/
theorem isReadable_of_mem_present {fields : List (String × Option Json)}
    (h : (Json.record fields).WellFormed) {member : String × Document}
    (hmember : member ∈ present fields) : member.2.isReadable = true := by
  obtain ⟨field, hfield, hsome⟩ := List.mem_filterMap.1 hmember
  obtain ⟨value, hvalue, rfl⟩ := Option.map_eq_some_iff.1 hsome
  refine Document.isReadable_document ((Json.wellFormedMembers_iff _).1 h.2 (field.1, value) ?_)
  exact List.mem_filterMap.2 ⟨field, hfield, by rw [hvalue]; rfl⟩

/-! ## Round trips -/

/-- What has the property `fits` is written and read again, up to what `whole` leaves out. -/
structure RoundTrips (encode : α → Json) (decode : Decoder α) (fits : α → Prop) (whole : α → α) :
    Prop where
  wellFormed : ∀ {x}, fits x → (encode x).WellFormed
  again : ∀ {x}, fits x → (encode x).decodeAs decode = .ok (whole x)
  /-- What is left out is not written. -/
  written : ∀ x, encode (whole x) = encode x

/-- Values survive being read and written: what a document is read as is what it shows, and so is
what is written again, up to what `whole` leaves out. -/
structure Faithful (encode : α → Json) (decode : Decoder α) (shows : Showing α) (fits : α → Prop)
    (whole : α → α) : Prop extends RoundTrips encode decode fits whole where
  /-- What is decoded is what the document shows. -/
  sound : decode.Sound shows
  fits_of_shown : ∀ document x, shows document x → fits x
  shown : ∀ {x}, fits x → shows (encode x).document (whole x)

theorem RoundTrips.faithful {encode : α → Json} {decode : Decoder α} {shows : Showing α}
    {fits : α → Prop} {whole : α → α} (h : RoundTrips encode decode fits whole)
    (hsound : decode.Sound shows) (hfits : ∀ document x, shows document x → fits x) :
    Faithful encode decode shows fits whole where
  toRoundTrips := h
  sound := hsound
  fits_of_shown := hfits
  shown hx := hsound _ _ (h.again hx)

/-- What was read is read again after it was written. -/
theorem Faithful.read_again {encode : α → Json} {decode : Decoder α} {shows : Showing α}
    {fits : α → Prop} {whole : α → α} (h : Faithful encode decode shows fits whole)
    {document : Document} {x : α} (hx : decode document = .ok x) :
    (encode x).decodeAs decode = .ok (whole x) :=
  h.again (h.fits_of_shown document x (h.sound document x hx))

theorem ReadsBackAll.roundTrips {encode : α → Json} {decode : Decoder α}
    (h : ReadsBackAll encode decode) : RoundTrips encode decode (fun _ => True) id where
  wellFormed {x} _ := (h.plain x).wellFormed
  again := h.ok
  written _ := rfl

namespace RoundTrips

variable {encode : α → Json} {decode : Decoder α} {fits : α → Prop} {whole : α → α}

theorem list (h : RoundTrips encode decode fits whole) :
    RoundTrips (fun xs : List α => .arr (xs.map encode)) (.list decode) (fun xs => ∀ x ∈ xs, fits x)
      (List.map whole) where
  wellFormed {xs} hfits := by
    refine (Json.wellFormedItems_iff _).2 fun item hitem => ?_
    obtain ⟨x, hx, rfl⟩ := List.mem_map.1 hitem
    exact h.wellFormed (hfits x hx)
  again {xs} hfits := by
    change (Json.documents (xs.map encode)).mapM decode = _
    rw [documents_map]
    induction xs with
    | nil => rfl
    | cons x xs ih =>
        have hx : decode (encode x).document = .ok (whole x) := h.again (hfits x List.mem_cons_self)
        rw [List.map_cons, List.mapM_cons, hx, ok_bind,
          ih fun other hother => hfits other (List.mem_cons_of_mem _ hother)]
        rfl
  written xs := by
    rw [List.map_map]
    exact congrArg Json.arr (List.map_congr_left fun x _ => h.written x)

theorem written_map (h : RoundTrips encode decode fits whole) (x : Option α) :
    (x.map whole).map encode = x.map encode := by
  cases x with
  | none => rfl
  | some x => exact congrArg some (h.written x)

variable {fields : Fields} {name : String}

/-- A field that is written at most once is read again. -/
theorem field (h : RoundTrips encode decode fits whole) (x : Option α) (hfits : Within fits x)
    (hunder : fields.under name = ((x.map encode).map Json.document).toList) :
    fields.field name decode = .ok (x.map whole) := by
  unfold Fields.field
  rw [hunder]
  cases x with
  | none => rfl
  | some x =>
      change (decode (encode x).document).map some = _
      rw [show decode (encode x).document = .ok (whole x) from h.again (hfits x rfl)]
      rfl

/-- A field that may be null is read again when no value is written as null. -/
theorem optionalField (h : RoundTrips encode decode fits whole)
    (hnull : ∀ x, (encode x).isNull = false) (x : Option α) (hfits : Within fits x)
    (hunder : fields.under name = ((x.map encode).map Json.document).toList) :
    fields.optionalField name decode = .ok (x.map whole) := by
  unfold Fields.optionalField Fields.field
  rw [hunder]
  cases x with
  | none => rfl
  | some x =>
      change ((decode.optional (encode x).document).map some).map Option.join = _
      rw [optional_document (hnull x), h.again (hfits x rfl)]
      rfl

end RoundTrips

namespace ReadsBackAll

variable {encode : α → Json} {decode : Decoder α} {fields : Fields} {name : String}

theorem field (h : ReadsBackAll encode decode) (x : Option α)
    (hunder : fields.under name = ((x.map encode).map Json.document).toList) :
    fields.field name decode = .ok x := by
  have hok := h.roundTrips.field x (fun _ _ => trivial) hunder
  rwa [Option.map_id, id] at hok

theorem optionalField (h : ReadsBackAll encode decode) (x : Option α)
    (hunder : fields.under name = ((x.map encode).map Json.document).toList) :
    fields.optionalField name decode = .ok x := by
  have hnull (x : α) : (encode x).isNull = false := (h.plain x).isNull_eq_false
  have hok := h.roundTrips.optionalField hnull x (fun _ _ => trivial) hunder
  rwa [Option.map_id, id] at hok

end ReadsBackAll

end ReplicaKeeper
