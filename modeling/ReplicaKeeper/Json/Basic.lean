import ReplicaKeeper.Entries

/-!
# JSON values

The values that objects, patches and answers are made of.  Whole numbers and floating point numbers
are different values: `1` is not `1.0`.  The members of an object are entries in increasing order of
their names; `WellFormed` says so at every depth, and every reader of this library builds well
formed values only.

`Json.beq` is the equality that programs compare values with.  It is equality of the values except
that the two floating point zeros are equal.
-/

set_option autoImplicit false

namespace ReplicaKeeper

/-! ## Floating point numbers -/

/-- A binary floating point number of 64 bits, by its bits. -/
structure Binary64 where
  bits : UInt64
  deriving DecidableEq, Repr

namespace Binary64

/-- The number that a floating point computation produced. -/
def ofFloat (x : Float) : Binary64 := ⟨x.toBits⟩

def zero : Binary64 := ⟨0⟩

def negativeZero : Binary64 := ⟨0x8000000000000000⟩

def isZero (x : Binary64) : Bool := x = zero || x = negativeZero

/-- Numerical equality of finite numbers: the two zeros are equal. -/
def beq (x y : Binary64) : Bool := x = y || (x.isZero && y.isZero)

end Binary64

/-! ## Values -/

/-- A JSON value. -/
inductive Json where
  | null
  | bool (b : Bool)
  | int (n : Int)
  | float (x : Binary64)
  | str (s : String)
  | arr (items : List Json)
  | obj (members : List (String × Json))
  deriving Inhabited, Repr

/-- The members of a JSON object. -/
abbrev Members := Entries String Json

namespace Json

/-- The object with no members. -/
def emptyObject : Json := .obj []

/-- The members of an object; every other value counts as the empty object. -/
def membersOrEmpty : Json → Members
  | .obj members => members
  | _ => []

/-- A number of 32 bits. -/
def ofInt32 (n : Int32) : Json := .int n.toInt

/-- A number of 64 bits. -/
def ofInt64 (n : Int64) : Json := .int n.toInt

def isNull : Json → Bool
  | .null => true
  | _ => false

def isObject : Json → Bool
  | .obj _ => true
  | _ => false

/-- The text of a string value. -/
def asString? : Json → Option String
  | .str s => some s
  | _ => none

/-- The member of an object under a name; a value that is no object has none. -/
def member? (value : Json) (name : String) : Option Json :=
  Entries.get? value.membersOrEmpty name

/-- The value that a path of member names leads to; absent when the path meets a value that is no
object. -/
def lookup (value : Json) : List String → Option Json
  | [] => some value
  | name :: path => (value.member? name).bind fun next => next.lookup path

/-- The object with the given members, where an absent member is left out.  The names are given in
increasing order. -/
def record (fields : List (String × Option Json)) : Json :=
  .obj (fields.filterMap fun field => field.2.map fun value => (field.1, value))

/-! ## Equality of values -/

mutual

/-- Equality of values, in which the two floating point zeros are equal. -/
def beq : Json → Json → Bool
  | .null, .null => true
  | .bool a, .bool b => a == b
  | .int a, .int b => a == b
  | .float a, .float b => a.beq b
  | .str a, .str b => a == b
  | .arr as, .arr bs => beqItems as bs
  | .obj as, .obj bs => beqMembers as bs
  | _, _ => false

def beqItems : List Json → List Json → Bool
  | [], [] => true
  | a :: as, b :: bs => beq a b && beqItems as bs
  | _, _ => false

def beqMembers : List (String × Json) → List (String × Json) → Bool
  | [], [] => true
  | (j, a) :: as, (k, b) :: bs => j == k && beq a b && beqMembers as bs
  | _, _ => false

end

instance : BEq Json := ⟨beq⟩

/-! ## Well formed values -/

mutual

/-- Every object in the value, at any depth, has its names in increasing order. -/
def WellFormed : Json → Prop
  | .arr items => WellFormedItems items
  | .obj members => Entries.Ordered members ∧ WellFormedMembers members
  | _ => True

def WellFormedItems : List Json → Prop
  | [] => True
  | item :: items => WellFormed item ∧ WellFormedItems items

def WellFormedMembers : List (String × Json) → Prop
  | [] => True
  | (_, value) :: members => WellFormed value ∧ WellFormedMembers members

end

/-! ## Objects written field by field -/

@[simp] theorem membersOrEmpty_obj (members : Members) : (obj members).membersOrEmpty = members :=
  rfl

@[simp] theorem member?_obj (members : Members) (name : String) :
    (obj members).member? name = Entries.get? members name := rfl

@[simp] theorem record_nil : record [] = obj [] := rfl

@[simp] theorem member?_record_none (name other : String) (fields : List (String × Option Json)) :
    (record ((name, none) :: fields)).member? other = (record fields).member? other := rfl

@[simp] theorem member?_record_some (name other : String) (value : Json)
    (fields : List (String × Option Json)) :
    (record ((name, some value) :: fields)).member? other =
      if name = other then some value else (record fields).member? other := rfl

/-- The members of a record are in order when its field names are. -/
theorem ordered_record {fields : List (String × Option Json)}
    (h : (fields.map (·.1)).Pairwise (· < ·)) : Entries.Ordered (record fields).membersOrEmpty := by
  induction fields with
  | nil => exact List.Pairwise.nil
  | cons field fields ih =>
      obtain ⟨name, value⟩ := field
      obtain ⟨hname, hrest⟩ := List.pairwise_cons.1 h
      cases value with
      | none => exact ih hrest
      | some value =>
          refine List.pairwise_cons.2 ⟨?_, ih hrest⟩
          intro entry hentry
          obtain ⟨field, hfield, hsome⟩ := List.mem_filterMap.1 hentry
          obtain ⟨value, _, rfl⟩ := Option.map_eq_some_iff.1 hsome
          exact hname _ (List.mem_map_of_mem hfield)

end Json

end ReplicaKeeper
