import ReplicaKeeper.Decode.Basic

/-!
# Labels

Texts under names: the labels and annotations of an object and the labels that a selector asks for.
Two label sets are equal when they have the same text under every name.
-/

set_option autoImplicit false

namespace ReplicaKeeper

/-- Texts under names, in the order of the names. -/
structure Labels where
  entries : Entries String String
  ordered : Entries.Ordered entries
  deriving DecidableEq

namespace Labels

def empty : Labels := ⟨[], Entries.ordered_nil⟩

instance : Inhabited Labels := ⟨empty⟩

def get? (labels : Labels) (name : String) : Option String := Entries.get? labels.entries name

/-- Sets the text under a name. -/
def insert (name text : String) (labels : Labels) : Labels :=
  ⟨Entries.insert name text labels.entries,
    labels.ordered.insert String.lt_trans
      (fun hlt hne => Std.not_le.1 fun hle => hne (String.le_antisymm (Std.not_lt.1 hlt) hle))
      name text⟩

/-- The labels of a list of pairs, where a later pair replaces an earlier one of the same name. -/
def ofPairs (pairs : List (String × String)) : Labels :=
  pairs.foldl (fun labels pair => labels.insert pair.1 pair.2) empty

/-! ## As JSON -/

def encode (labels : Labels) : Json :=
  .obj (labels.entries.map fun entry => (entry.1, .str entry.2))

def decode : Decoder Labels := fun value => do
  let members ← Decoder.members "a map" value
  let pairs ← members.mapM fun member => do
    let text ← Decoder.string member.2
    return (member.1, text)
  return ofPairs pairs

/-! ## Laws -/

@[ext] theorem ext {left right : Labels} (h : left.entries = right.entries) : left = right := by
  cases left
  cases right
  simpa using h

theorem get?_insert (name text : String) (labels : Labels) (other : String) :
    (labels.insert name text).get? other = if name = other then some text else labels.get? other :=
  Entries.get?_insert name text labels.entries other

/-- Labels are read back from their own entries. -/
theorem ofPairs_entries (labels : Labels) : ofPairs labels.entries = labels := by
  have entries_foldl : ∀ (pairs : List (String × String)) (start : Labels),
      (pairs.foldl (fun labels pair => labels.insert pair.1 pair.2) start).entries =
        pairs.foldl (fun entries pair => Entries.insert pair.1 pair.2 entries) start.entries := by
    intro pairs
    induction pairs with
    | nil => intro start; rfl
    | cons pair rest ih => intro start; exact ih (start.insert pair.1 pair.2)
  exact ext ((entries_foldl labels.entries empty).trans
    (labels.ordered.ofPairs_eq String.lt_trans (String.lt_irrefl _)))

end Labels

end ReplicaKeeper
