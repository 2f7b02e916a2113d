import Mathlib.Data.List.Forall2
import ReplicaKeeper.Proofs.Decode.ReadsBack

/-!
# What documents show

A relation between documents and values says what a document shows, without any decoder.  Records
are given as objects, with their parts under names, or as sequences, with their parts in the order
of their declaration; `Document.part?` finds a part in both forms.

A decoder is sound when a document shows all that is decoded from it: `Decoder.Sound`, proved along
the way in which a decoder is put together.
-/

set_option autoImplicit false

namespace ReplicaKeeper

variable {α β : Type}

/-! ## Lists that belong together -/

/-- A step that succeeds on all elements relates each of them to its result. -/
theorem forall₂_of_mapM {ε : Type} {f : α → Except ε β} {R : α → β → Prop}
    (hf : ∀ x y, f x = .ok y → R x y) {xs : List α} {ys : List β} (h : xs.mapM f = .ok ys) :
    List.Forall₂ R xs ys := by
  induction xs generalizing ys with
  | nil =>
      obtain rfl := Except.ok.inj h
      exact .nil
  | cons x xs ih =>
      rw [List.mapM_cons] at h
      obtain ⟨first, hfirst, hrest⟩ := bind_eq_ok.1 h
      obtain ⟨others, hothers, hcons⟩ := bind_eq_ok.1 hrest
      obtain rfl := Except.ok.inj hcons
      exact .cons (hf x first hfirst) (ih hothers)

/-- Elements that are known from their results. -/
theorem eq_map_of_mapM {ε : Type} {f : α → Except ε β} {g : β → α}
    (hf : ∀ x y, f x = .ok y → x = g y) {xs : List α} {ys : List β} (h : xs.mapM f = .ok ys) :
    xs = ys.map g := by
  have hall : List.Forall₂ Eq xs (ys.map g) :=
    List.forall₂_map_right_iff.2 (forall₂_of_mapM hf h)
  rwa [List.forall₂_eq_eq_eq] at hall

/-- The last elements of lists belong together. -/
theorem rel_getLast? {R : α → β → Prop} {xs : List α} {ys : List β} (h : List.Forall₂ R xs ys) :
    Option.Rel R xs.getLast? ys.getLast? := by
  have hhead {xs : List α} {ys : List β} (h : List.Forall₂ R xs ys) :
      Option.Rel R xs.head? ys.head? := by
    cases h with
    | nil => exact .none
    | cons hfirst _ => exact .some hfirst
  rw [List.getLast?_eq_head?_reverse, List.getLast?_eq_head?_reverse]
  exact hhead (List.rel_reverse h)

/-! ## Parts of documents -/

namespace Document

def IsObject (document : Document) : Prop := ∃ members, document = .obj members

/-- Records are objects or sequences. -/
def IsRecord (document : Document) : Prop := (∃ items, document = .arr items) ∨ document.IsObject

/-- The last member of an object under a name. -/
def member? (document : Document) (name : String) : Option Document :=
  match document with
  | .obj members => ((members.filter fun member => member.1 = some name).getLast?).map (·.2)
  | _ => none

/-- A part of a record: the element at a place of a sequence, the member under a name of an
object. -/
def part? (document : Document) (place : Nat) (name : String) : Option Document :=
  match document with
  | .arr items => items[place]?
  | document => document.member? name

/-- A part that is not null. -/
def given? : Option Document → Option Document
  | some .null => none
  | part => part

end Document

/-! ## What is shown -/

/-- Which values documents show. -/
abbrev Showing (α : Type) := Document → α → Prop

namespace Showing

def string : Showing String := fun document s => document = .str s

def bool : Showing Bool := fun document b => document = .bool b

def int32 : Showing Int32 := fun document n => document = .int n.toInt

def int64 : Showing Int64 := fun document n => document = .int n.toInt

/-- A moment is shown by each text that stands for it. -/
def time : Showing Time := fun document time =>
  ∃ text, document = .str text ∧ Time.parse text = .ok time

/-- Any value. -/
def value : Showing Json := fun document value => document.toJson? = some value

/-- One of some words, also as the only name of an object. -/
def word (text : α → String) : Showing α := fun document x =>
  document = .str (text x) ∨ ∃ beside, document = .obj [(some (text x), beside)]

/-- Element by element, in order. -/
def list (shows : Showing α) : Showing (List α) := fun document xs =>
  ∃ items, document = .arr items ∧ List.Forall₂ shows items xs

/-- A value, or null for none. -/
def orNull (shows : Showing α) : Showing (Option α) := fun document x =>
  Option.Rel shows (Document.given? (some document)) x

/-- A part that is not absent. -/
def required (shows : Showing α) (part : Option Document) (x : α) : Prop :=
  Option.Rel shows part (some x)

/-- A part that may be absent or null. -/
def optional (shows : Showing α) (part : Option Document) (x : Option α) : Prop :=
  Option.Rel shows (Document.given? part) x

/-- A part whose absence stands for a value. -/
def orElse (shows : Showing α) (absent : α) (part : Option Document) (x : α) : Prop :=
  ∃ found, Option.Rel shows part found ∧ found.getD absent = x

variable {shows : Showing α}

theorem optional_join {part : Option Document} {x : Option (Option α)}
    (h : Option.Rel shows.orNull part x) : shows.optional part x.join := by
  cases h with
  | none => exact .none
  | some h => exact h

theorem optional_of_required {part : Option Document} {x : Option α}
    (h : shows.orNull.required part x) : shows.optional part x :=
  optional_join h

end Showing

/-! ## Sound decoders -/

/-- A document shows what is decoded from it. -/
def Decoder.Sound (decode : Decoder α) (shows : Showing α) : Prop :=
  ∀ document x, decode document = .ok x → shows document x

namespace Decoder

theorem sound_string : Sound string .string := by
  intro document s h
  cases document with
  | str text => exact congrArg Document.str (Except.ok.inj h)
  | _ => cases h

theorem sound_bool : Sound bool .bool := by
  intro document b h
  cases document with
  | bool found => exact congrArg Document.bool (Except.ok.inj h)
  | _ => cases h

/-- A whole number within its bounds. -/
theorem integer_eq_ok {least greatest n : Int} {name : String} {document : Document}
    (h : integer least greatest name document = .ok n) :
    document = .int n ∧ least ≤ n ∧ n ≤ greatest := by
  unfold integer at h
  split at h
  · split at h
    · next hbounds =>
      obtain rfl := Except.ok.inj h
      exact ⟨rfl, hbounds⟩
    · cases h
  · cases h

theorem sound_int32 : Sound int32 .int32 := by
  intro document n h
  obtain ⟨found, hfound, rfl⟩ := map_eq_ok.1 h
  obtain ⟨rfl, hleast, hgreatest⟩ := integer_eq_ok hfound
  have htoInt : (Int32.ofInt found).toInt = found :=
    Int32.toInt_ofInt_of_le hleast (Int.lt_add_one_of_le hgreatest)
  exact congrArg Document.int htoInt.symm

theorem sound_int64 : Sound int64 .int64 := by
  intro document n h
  obtain ⟨found, hfound, rfl⟩ := map_eq_ok.1 h
  obtain ⟨rfl, hleast, hgreatest⟩ := integer_eq_ok hfound
  have htoInt : (Int64.ofInt found).toInt = found :=
    Int64.toInt_ofInt_of_le hleast (Int.lt_add_one_of_le hgreatest)
  exact congrArg Document.int htoInt.symm

theorem sound_time : Sound time .time := by
  intro document moment h
  unfold time at h
  split at h
  · next text =>
    split at h
    · next found hparse =>
      obtain rfl := Except.ok.inj h
      exact ⟨text, rfl, hparse⟩
    · cases h
  · cases h

theorem sound_value : Sound value .value := by
  intro document found h
  unfold value at h
  split at h
  · next given hgiven =>
    obtain rfl := Except.ok.inj h
    exact hgiven
  · cases h

/-- A word stands for what it is the text of. -/
theorem sound_choice {words : List (String × α)} {text : α → String}
    (hwords : ∀ entry ∈ words, entry.1 = text entry.2) (beside : Beside) :
    Sound (choice words beside) (.word text) := by
  have hmeaning {word : String} {x : α} (h : meaning words word = .ok x) : word = text x := by
    unfold meaning at h
    split at h
    · next found hlookup =>
      obtain rfl := Except.ok.inj h
      obtain ⟨before, after, rfl, -⟩ := List.lookup_eq_some_iff.1 hlookup
      exact hwords (word, found) (by simp)
    · cases h
  intro document x h
  unfold choice at h
  split at h
  · exact .inl (congrArg Document.str (hmeaning h))
  · next word value =>
    obtain ⟨found, hfound, hvalue⟩ := bind_eq_ok.1 h
    split at hvalue
    · obtain rfl := Except.ok.inj hvalue
      obtain rfl := hmeaning hfound
      exact .inr ⟨value, rfl⟩
    · cases hvalue
  · cases h
  · cases h

namespace Sound

variable {decode : Decoder α} {shows : Showing α}

theorem map_some {document : Document} {x : Option α} (h : decode.Sound shows)
    (hx : (decode document).map some = .ok x) : Option.Rel shows (some document) x := by
  obtain ⟨found, hfound, rfl⟩ := map_eq_ok.1 hx
  exact .some (h document found hfound)

theorem optional (h : decode.Sound shows) : decode.optional.Sound shows.orNull := by
  intro document x hx
  cases document with
  | null =>
      obtain rfl := Except.ok.inj hx
      exact .none
  | _ => exact h.map_some hx

theorem list (h : decode.Sound shows) : (Decoder.list decode).Sound (.list shows) := by
  intro document xs hxs
  unfold Decoder.list at hxs
  split at hxs
  · next items => exact ⟨items, rfl, forall₂_of_mapM h hxs⟩
  · cases hxs

theorem readable (h : decode.Sound shows) : (Decoder.readable decode).Sound shows := by
  intro document x hx
  unfold Decoder.readable at hx
  split at hx
  · exact h document x hx
  · cases hx

end Sound

end Decoder

/-! ## Fields -/

/-- The members of an object are its parts. -/
theorem Decoder.members_eq_ok {expected : String} {document : Document} {fields : Fields}
    (h : Decoder.members expected document = .ok fields) :
    document = .obj (fields.map fun field => (some field.1, field.2)) := by
  have hnamed (member : Option String × Document) (field : String × Document)
      (hfield : Decoder.named member = .ok field) : member = (some field.1, field.2) := by
    unfold Decoder.named at hfield
    split at hfield
    · obtain rfl := Except.ok.inj hfield
      rfl
    · cases hfield
  unfold Decoder.members at h
  split at h
  · exact congrArg Document.obj (eq_map_of_mapM hnamed h)
  · cases h

section Fields

variable {decode : Decoder α} {shows : Showing α} {expected name : String} {document : Document}
  {fields : Fields}

theorem member?_of_members (h : Decoder.members expected document = .ok fields) (name : String) :
    document.member? name = (fields.under name).getLast? := by
  rw [Decoder.members_eq_ok h]
  unfold Document.member? Fields.under
  dsimp only
  rw [List.filter_map, List.getLast?_map, Option.map_map, List.getLast?_map]
  simp [Function.comp_def]

theorem part?_of_members (h : Decoder.members expected document = .ok fields) (place : Nat)
    (name : String) : document.part? place name = document.member? name := by
  rw [Decoder.members_eq_ok h]
  rfl

theorem isObject_of_members (h : Decoder.members expected document = .ok fields) :
    document.IsObject :=
  ⟨_, Decoder.members_eq_ok h⟩

namespace Decoder.Sound

theorem member (h : decode.Sound shows) (hmembers : Decoder.members expected document = .ok fields)
    {x : Option α} (hx : fields.field name decode = .ok x) :
    Option.Rel shows (document.member? name) x := by
  rw [member?_of_members hmembers]
  unfold Fields.field at hx
  split at hx
  · next hunder =>
    obtain rfl := Except.ok.inj hx
    rw [hunder]
    exact .none
  · next part hunder =>
    rw [hunder]
    exact h.map_some hx
  · cases hx

theorem field (h : decode.Sound shows) (hmembers : Decoder.members expected document = .ok fields)
    {x : Option α} (hx : fields.field name decode = .ok x) (place : Nat) :
    Option.Rel shows (document.part? place name) x := by
  rw [part?_of_members hmembers]
  exact h.member hmembers hx

theorem optionalField (h : decode.Sound shows)
    (hmembers : Decoder.members expected document = .ok fields) {x : Option α}
    (hx : fields.optionalField name decode = .ok x) (place : Nat) :
    shows.optional (document.part? place name) x := by
  obtain ⟨found, hfound, rfl⟩ := map_eq_ok.1 hx
  exact Showing.optional_join (h.optional.field hmembers hfound place)

theorem lastOptionalField (h : decode.Sound shows)
    (hmembers : Decoder.members expected document = .ok fields) {x : Option α}
    (hx : fields.lastOptionalField name decode = .ok x) :
    shows.optional (document.member? name) x := by
  obtain ⟨found, hfound, rfl⟩ := map_eq_ok.1 hx
  obtain ⟨values, hvalues, rfl⟩ := map_eq_ok.1 hfound
  rw [member?_of_members hmembers]
  exact Showing.optional_join (rel_getLast? (forall₂_of_mapM h.optional hvalues))

end Decoder.Sound

theorem required_eq_ok {x : Option α} {given : α} (h : required name x = .ok given) :
    x = some given := by
  cases x with
  | none => cases h
  | some found => exact congrArg some (Except.ok.inj h)

end Fields

/-! ## Sequences -/

namespace ElementReader

/-- From one place of a sequence on, the reader gives what has the property, and it goes on to
another place. -/
def Reads (items : List Document) (place next : Nat) (reader : ElementReader α)
    (property : α → Prop) : Prop :=
  ∀ x left, StateT.run reader (items.drop place) = .ok (x, left) →
    property x ∧ left = items.drop next

variable {items : List Document} {place next last : Nat} {property : α → Prop}
  {result : β → Prop} {decode : Decoder α} {shows : Showing α}

theorem Reads.pure {x : α} (h : property x) :
    Reads items place place (Pure.pure x) property := by
  intro y left hrun
  cases hrun
  exact ⟨h, rfl⟩

theorem Reads.bind {reader : ElementReader α} (h : Reads items place next reader property)
    {go : α → ElementReader β} (hgo : ∀ x, property x → Reads items next last (go x) result) :
    Reads items place last (reader >>= go) result := by
  intro y left hrun
  rw [StateT.run_bind] at hrun
  obtain ⟨⟨x, between⟩, hx, hy⟩ := bind_eq_ok.1 hrun
  obtain ⟨hproperty, rfl⟩ := h x between hx
  exact hgo x hproperty y left hy

theorem reads_next (h : decode.Sound shows) (place : Nat) :
    Reads items place (place + 1) (ElementReader.next decode) (Option.Rel shows items[place]?) := by
  intro x left hrun
  rw [← List.head?_drop, ← List.tail_drop]
  change ElementReader.next decode (items.drop place) = _ at hrun
  unfold ElementReader.next at hrun
  split at hrun
  · next hnil =>
    cases hrun
    rw [hnil]
    exact ⟨.none, rfl⟩
  · next part rest hcons =>
    obtain ⟨found, hfound, hpair⟩ := map_eq_ok.1 hrun
    cases hpair
    rw [hcons]
    exact ⟨.some (h part found hfound), rfl⟩

theorem reads_nextRequired (h : decode.Sound shows) (place : Nat) (expected : String) :
    Reads items place (place + 1) (nextRequired place expected decode)
      (shows.required items[place]?) := by
  refine (reads_next h place).bind fun x hx => ?_
  cases x with
  | none => intro x left hrun; cases hrun
  | some x => exact .pure hx

theorem reads_nextOptional (h : decode.Sound shows) (place : Nat) :
    Reads items place (place + 1) (nextOptional decode) (shows.optional items[place]?) :=
  (reads_next h.optional place).bind fun _ hx => .pure (Showing.optional_join hx)

/-- What is read from a whole sequence is read from its start on. -/
theorem Reads.of_run {reader : ElementReader α} (h : Reads items 0 last reader property)
    {surplus : Nat → DecodeError} {x : α} (hx : reader.run surplus items = .ok x) :
    property x := by
  obtain ⟨⟨found, left⟩, hfound, hend⟩ := bind_eq_ok.1 hx
  dsimp only at hend
  split at hend
  · obtain rfl := Except.ok.inj hend
    exact (h found left hfound).1
  · cases hend

end ElementReader

end ReplicaKeeper
