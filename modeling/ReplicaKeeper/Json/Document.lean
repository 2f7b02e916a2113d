import ReplicaKeeper.Json.Basic

/-!
# JSON documents

A document keeps what a text says and a value forgets: the order of the members of an object, and
names that occur more than once.  A part that follows the grammar but stands for nothing, such as a
number that is too large, is kept as `unreadable`: it does no harm where nobody looks at it.

`Json.document` writes a value as a document, `Document.toJson?` gives the value of a document that
is readable throughout.  A well formed value comes back: `Document.toJson?_document`.
-/

set_option autoImplicit false

namespace ReplicaKeeper

/-- A JSON document. -/
inductive Document where
  | null
  | bool (b : Bool)
  | int (n : Int)
  | float (x : Binary64)
  | str (s : String)
  | arr (items : List Document)
  /-- An object, with its members as they are given.  A name that is unreadable is none. -/
  | obj (members : List (Option String × Document))
  /-- A part that follows the grammar and has no value. -/
  | unreadable
  deriving Inhabited, Repr

/-- The document of a string that may have no value. -/
def Document.ofText : Option String → Document
  | some s => .str s
  | none => .unreadable

/-! ## Documents of values -/

mutual

/-- The document of a value. -/
def Json.document : Json → Document
  | .null => .null
  | .bool b => .bool b
  | .int n => .int n
  | .float x => .float x
  | .str s => .str s
  | .arr items => .arr (Json.documents items)
  | .obj members => .obj (Json.namedDocuments members)

def Json.documents : List Json → List Document
  | [] => []
  | item :: items => item.document :: Json.documents items

def Json.namedDocuments : List (String × Json) → List (Option String × Document)
  | [] => []
  | (name, value) :: members => (some name, value.document) :: Json.namedDocuments members

end

/-! ## Values of documents -/

namespace Document

mutual

/-- The value of a document.  Of the members with one name the last one counts. -/
def toJson? : Document → Option Json
  | .null => some .null
  | .bool b => some (.bool b)
  | .int n => some (.int n)
  | .float x => some (.float x)
  | .str s => some (.str s)
  | .arr items => (itemValues? items).map .arr
  | .obj members => (memberValues? members).map fun members => .obj (Entries.ofPairs members)
  | .unreadable => none

def itemValues? : List Document → Option (List Json)
  | [] => some []
  | item :: items => do return (← item.toJson?) :: (← itemValues? items)

def memberValues? : List (Option String × Document) → Option (List (String × Json))
  | [] => some []
  | (name, value) :: members => do
      return (← name, ← value.toJson?) :: (← memberValues? members)

end

/-- Whether a document has a value. -/
def isReadable (document : Document) : Bool := document.toJson?.isSome

/-! ## The value of the document of a value -/

mutual

/-- A well formed value is the value of its document. -/
theorem toJson?_document : ∀ {value : Json}, value.WellFormed →
    value.document.toJson? = some value
  | .null, _ | .bool _, _ | .int _, _ | .float _, _ | .str _, _ => by
      simp [Json.document, toJson?]
  | .arr items, h => by
      simp only [Json.WellFormed] at h
      simp [Json.document, toJson?, itemValues?_documents h]
  | .obj members, h => by
      simp only [Json.WellFormed] at h
      simp [Json.document, toJson?, memberValues?_namedDocuments h.2,
        h.1.ofPairs_eq String.lt_trans (String.lt_irrefl _)]

theorem itemValues?_documents : ∀ {items : List Json}, Json.WellFormedItems items →
    itemValues? (Json.documents items) = some items
  | [], _ => rfl
  | _ :: _, h => by
      simp only [Json.WellFormedItems] at h
      simp [Json.documents, itemValues?, toJson?_document h.1, itemValues?_documents h.2]

theorem memberValues?_namedDocuments : ∀ {members : List (String × Json)},
    Json.WellFormedMembers members →
    memberValues? (Json.namedDocuments members) = some members
  | [], _ => rfl
  | (_, _) :: _, h => by
      simp only [Json.WellFormedMembers] at h
      simp [Json.namedDocuments, memberValues?, toJson?_document h.1,
        memberValues?_namedDocuments h.2]

end

end Document

end ReplicaKeeper
