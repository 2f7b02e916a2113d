import ReplicaKeeper.Proofs.MergePatch.NullCover

/-!
# Three-way merges

The patch from a base to a desired object may be applied to a third value, the current one.  Under a
path to which the base and the desired object agree, the current value stays as it is; where they
differ, and nothing but a leaf or nothing is desired, the desired value takes over.
`lookup_apply_diff` says so for every path, however much the three values differ in shape.

Both halves go down the path by `lookup_become_change?_obj`: below a name that is an object in the
base and in the desired object, the patch is the patch between these two objects.
-/

set_option autoImplicit false

namespace ReplicaKeeper.MergePatch

open Entries Json

/-! ## Values along a path -/

/-- There is an object under the path. -/
def IsObjectAt (value : Json) (path : List String) : Prop :=
  ∃ members, value.lookup path = some (.obj members)

/-- There is an object under every strict prefix of the path. -/
def ObjectsAlong (value : Json) (path : List String) : Prop :=
  ∀ front name rest, path = front ++ name :: rest → IsObjectAt value front

/-- Two values have equal values under the path, or both have none. -/
def SameAt (left right : Json) (path : List String) : Prop :=
  SameMember (left.lookup path) (right.lookup path)

theorem lookup_cons (value : Json) (name : String) (path : List String) :
    value.lookup (name :: path) = (value.member? name).bind fun next => next.lookup path := by
  rw [lookup]

theorem lookup_nil (value : Json) : value.lookup [] = some value := by
  rw [lookup]

theorem lookup_singleton (members : Members) (name : String) :
    (obj members).lookup [name] = get? members name := by
  rw [lookup_cons, member?_obj]
  cases get? members name with
  | none => rfl
  | some value => exact lookup_nil value

/-- Nothing is below a value that is no object. -/
theorem lookup_cons_of_not_isObject {value : Json} (h : value.isObject = false) (name : String)
    (path : List String) : value.lookup (name :: path) = none := by
  rw [lookup_cons, member?, membersOrEmpty_eq_nil h]
  rfl

/-- Below an absent value there is as little as below null. -/
theorem lookup_cons_getD_null (present : Option Json) (name : String) (path : List String) :
    (present.getD .null).lookup (name :: path) =
      present.bind fun value => value.lookup (name :: path) := by
  cases present with
  | none => exact lookup_cons_of_not_isObject rfl name path
  | some value => rfl

/-- The objects along a path go on below its first name. -/
theorem ObjectsAlong.tail {members : Members} {name next : String} {path : List String}
    (h : ObjectsAlong (.obj members) (name :: next :: path)) :
    ∃ below, get? members name = some (.obj below) ∧ ObjectsAlong (.obj below) (next :: path) := by
  obtain ⟨below, hbelow⟩ := h [name] next path rfl
  have hfound : get? members name = some (.obj below) := by
    rw [← lookup_singleton]
    exact hbelow
  refine ⟨below, hfound, fun front last rest hpath => ?_⟩
  obtain ⟨deeper, hdeeper⟩ := h (name :: front) last rest (congrArg (name :: ·) hpath)
  rw [lookup_cons, member?_obj, hfound, Option.bind_some] at hdeeper
  exact ⟨deeper, hdeeper⟩

/-! ## The patch along a path -/

section Descent

variable {base desired : Members}

theorem lookup_apply_diff_cons (hbase : Ordered base) (current : Json) (name : String)
    (path : List String) :
    (apply (diff (.obj base) (.obj desired)) current).lookup (name :: path) =
      (become (get? (diffMembers base desired) name) (current.member? name)).bind
        fun next => next.lookup path := by
  rw [diff, apply_obj, lookup_cons, member?_obj,
    get?_applyMembers_eq_become (ordered_diffMembers hbase desired)]
  rfl

/-- Below two objects the change of a member is the patch between them. -/
theorem lookup_become_change?_obj (hbase : Ordered base) (hdesired : Ordered desired)
    (present : Option Json) (name : String) (path : List String) :
    ((become (change? (.obj desired) (some (.obj base))) present).bind
        fun value => value.lookup (name :: path)) =
      (apply (diff (.obj base) (.obj desired)) (present.getD .null)).lookup (name :: path) := by
  rw [change?_obj hbase hdesired]
  cases hpatch : diffMembers base desired with
  | nil =>
      rw [lookup_apply_diff_cons hbase, hpatch, ← lookup_cons_getD_null]
      exact lookup_cons _ name path
  | cons change patch =>
      rw [diff, hpatch]
      rfl

end Descent

/-! ## Where base and desired object agree -/

theorem lookup_apply_diff_of_sameAt {path : List String} :
    ∀ {name : String} {base desired : Members}, (obj base).WellFormed → (obj desired).WellFormed →
      ∀ current : Json, ObjectsAlong (.obj base) (name :: path) →
        ObjectsAlong (.obj desired) (name :: path) →
        SameAt (.obj base) (.obj desired) (name :: path) →
        (apply (diff (.obj base) (.obj desired)) current).lookup (name :: path) =
          current.lookup (name :: path) := by
  induction path with
  | nil =>
      intro name base desired hbase hdesired current _ _ hsame
      rw [SameAt, lookup_singleton, lookup_singleton] at hsame
      have hnone : get? (diffMembers base desired) name = none := by
        rw [get?_diffMembers hdesired.ordered]
        cases hvalue : get? desired name with
        | none =>
            rw [hvalue, sameMember_none_right] at hsame
            rw [hsame]
            rfl
        | some value =>
            rw [hvalue, sameMember_some_right] at hsame
            obtain ⟨present, hpresent, hequal⟩ := hsame
            rw [hpresent]
            exact change?_of_beq hequal
      rw [lookup_apply_diff_cons hbase.ordered, hnone, lookup_cons]
      rfl
  | cons next path ih =>
      intro name base desired hbase hdesired current halong hdesiredAlong hsame
      obtain ⟨below, hbelow, halong⟩ := halong.tail
      obtain ⟨wanted, hwanted, hdesiredAlong⟩ := hdesiredAlong.tail
      have hbelowFormed : (obj below).WellFormed := hbase.member? hbelow
      have hwantedFormed : (obj wanted).WellFormed := hdesired.member? hwanted
      rw [SameAt, lookup_cons, lookup_cons, member?_obj, member?_obj, hbelow, hwanted] at hsame
      rw [lookup_apply_diff_cons hbase.ordered, get?_diffMembers hdesired.ordered, hwanted, hbelow]
      dsimp only
      rw [lookup_become_change?_obj hbelowFormed.ordered hwantedFormed.ordered,
        ih hbelowFormed hwantedFormed _ halong hdesiredAlong hsame, lookup_cons_getD_null,
        lookup_cons current]

/-! ## Where base and desired object differ -/

/-- A value without nulls puts its leaves into every value that it is applied to. -/
theorem lookup_apply_of_leaf {path : List String} :
    ∀ {value leaf : Json}, value.WellFormed → NullFree value → value.lookup path = some leaf →
      leaf.isObject = false → ∀ target : Json, (apply value target).lookup path = some leaf := by
  induction path with
  | nil =>
      intro value leaf _ _ hleaf hobject target
      obtain rfl : value = leaf := Option.some.inj hleaf
      rw [apply_of_not_isObject hobject, lookup_nil]
  | cons name path ih =>
      intro value leaf hvalue hfree hleaf hobject target
      cases value with
      | obj members =>
          rw [lookup_cons, member?_obj] at hleaf
          obtain ⟨member, hmember, hbelow⟩ := Option.bind_eq_some_iff.1 hleaf
          obtain ⟨hnull, hmemberFree⟩ := NullFree.get? hfree hmember
          have hisNull := (isNull_eq_false_iff member).2 hnull
          rw [apply_obj, lookup_cons, member?_obj, get?_applyMembers_eq_become hvalue.ordered,
            hmember, become_some hisNull, Option.bind_some]
          exact ih (hvalue.member? hmember) hmemberFree hbelow hobject _
      | _ => cases hleaf

section Members

variable {value : Json} {base : Option Json} {path : List String}

/-- A member that is no object on both sides is replaced when the sides differ under some path. -/
theorem change?_of_differ
    (hobjects : ∀ present, base = some present → present.isObject = false ∨ value.isObject = false)
    (hdiffer : ¬ SameMember (base.bind fun present => present.lookup path) (value.lookup path)) :
    change? value base = some value := by
  cases base with
  | none => exact change?_none value
  | some present =>
      refine change?_of_not_isObject (hobjects present rfl) (Bool.eq_false_iff.2 fun hequal => ?_)
      -- Equal values that are no objects do not differ under any path.
      have hsame := isObject_eq_of_beq hequal
      have hneither : present.isObject = false ∧ value.isObject = false := by
        rcases hobjects present rfl with hpresent | hvalue
        · exact ⟨hpresent, hsame ▸ hpresent⟩
        · exact ⟨hsame.trans hvalue, hvalue⟩
      refine hdiffer ?_
      rw [Option.bind_some]
      cases path with
      | nil =>
          rw [lookup_nil, lookup_nil]
          exact hequal
      | cons name path =>
          rw [lookup_cons_of_not_isObject hneither.1, lookup_cons_of_not_isObject hneither.2]
          trivial

/-- Where the base goes on and the desired value does not, the latter is no object. -/
theorem isObject_eq_false_of_differ
    (hobjects : ∀ present, base = some present → present.isObject = false ∨ value.isObject = false)
    (hdiffer : ¬ SameMember (base.bind fun present => present.lookup path) (value.lookup path))
    (hnone : value.lookup path = none) : value.isObject = false := by
  rw [hnone] at hdiffer
  cases base with
  | none => exact absurd trivial hdiffer
  | some present =>
      refine (hobjects present rfl).resolve_left fun hpresent => hdiffer ?_
      cases path with
      | nil => cases hnone
      | cons name path =>
          rw [Option.bind_some, lookup_cons_of_not_isObject hpresent]
          trivial

/-- The change of a member that is no object on both sides brings the desired value under every
path on which the two sides differ. -/
theorem lookup_become_change? (hvalue : value.WellFormed) (hfree : NullFree value)
    (hnull : value ≠ .null)
    (hobjects : ∀ present, base = some present → present.isObject = false ∨ value.isObject = false)
    (hdiffer : ¬ SameMember (base.bind fun present => present.lookup path) (value.lookup path))
    (hleaf : ∀ members, value.lookup path ≠ some (.obj members)) (current : Option Json) :
    ((become (change? value base) current).bind fun next => next.lookup path) =
      value.lookup path := by
  have hisNull := (isNull_eq_false_iff value).2 hnull
  rw [change?_of_differ hobjects hdiffer, become_some hisNull, Option.bind_some]
  cases hfound : value.lookup path with
  | some leaf =>
      refine lookup_apply_of_leaf hvalue hfree hfound ?_ _
      cases leaf with
      | obj members => exact absurd hfound (hleaf members)
      | _ => rfl
  | none =>
      rw [apply_of_not_isObject (isObject_eq_false_of_differ hobjects hdiffer hfound), hfound]

end Members

/-- One name of a path on which base and desired object differ, as long as the two do not both go on
with objects. -/
theorem lookup_apply_diff_of_differ_step {base desired : Members} (hbase : (obj base).WellFormed)
    (hdesired : (obj desired).WellFormed) (hfree : NullFree (.obj desired)) {name : String}
    {path : List String} (current : Json)
    (hdiffer : ¬ SameAt (.obj base) (.obj desired) (name :: path))
    (hleaf : ¬ IsObjectAt (.obj desired) (name :: path))
    (hbelow : ∀ below wanted, get? base name = some (.obj below) →
      get? desired name = some (.obj wanted) →
      (apply (diff (.obj base) (.obj desired)) current).lookup (name :: path) =
        (obj desired).lookup (name :: path)) :
    (apply (diff (.obj base) (.obj desired)) current).lookup (name :: path) =
      (obj desired).lookup (name :: path) := by
  by_cases hobjects : ∃ below wanted, get? base name = some (.obj below) ∧
      get? desired name = some (.obj wanted)
  · obtain ⟨below, wanted, hpresent, hwanted⟩ := hobjects
    exact hbelow below wanted hpresent hwanted
  · rw [SameAt, lookup_cons, lookup_cons, member?_obj, member?_obj] at hdiffer
    rw [IsObjectAt, lookup_cons, member?_obj] at hleaf
    rw [lookup_apply_diff_cons hbase.ordered, get?_diffMembers hdesired.ordered,
      lookup_cons (.obj desired), member?_obj]
    cases hvalue : get? desired name with
    | none =>
        -- The base has the name, as it differs, and the patch removes it.
        cases hpresent : get? base name with
        | none =>
            rw [hvalue, hpresent] at hdiffer
            exact absurd trivial hdiffer
        | some present => rfl
    | some value =>
        rw [hvalue, Option.bind_some] at hdiffer hleaf
        obtain ⟨hnull, hvalueFree⟩ := NullFree.get? hfree hvalue
        refine lookup_become_change? (hdesired.member? hvalue) hvalueFree hnull ?_ hdiffer
          (fun members hfound => hleaf ⟨members, hfound⟩) _
        intro present hpresent
        rcases present.objects_or_not value with ⟨below, wanted, rfl, rfl⟩ | hneither
        · exact absurd ⟨below, wanted, hpresent, hvalue⟩ hobjects
        · exact hneither

theorem lookup_apply_diff_of_differ {path : List String} :
    ∀ {name : String} {base desired : Members}, (obj base).WellFormed → (obj desired).WellFormed →
      NullFree (.obj desired) → ∀ current : Json,
        ¬ SameAt (.obj base) (.obj desired) (name :: path) →
        ¬ IsObjectAt (.obj desired) (name :: path) →
        (apply (diff (.obj base) (.obj desired)) current).lookup (name :: path) =
          (obj desired).lookup (name :: path) := by
  induction path with
  | nil =>
      intro name base desired hbase hdesired hfree current hdiffer hleaf
      refine lookup_apply_diff_of_differ_step hbase hdesired hfree current hdiffer hleaf ?_
      intro below wanted _ hwanted
      exact absurd ⟨wanted, (lookup_singleton desired name).trans hwanted⟩ hleaf
  | cons next path ih =>
      intro name base desired hbase hdesired hfree current hdiffer hleaf
      refine lookup_apply_diff_of_differ_step hbase hdesired hfree current hdiffer hleaf ?_
      intro below wanted hpresent hwanted
      have hbelowFormed : (obj below).WellFormed := hbase.member? hpresent
      have hwantedFormed : (obj wanted).WellFormed := hdesired.member? hwanted
      rw [SameAt, lookup_cons, lookup_cons, member?_obj, member?_obj, hpresent, hwanted] at hdiffer
      rw [IsObjectAt, lookup_cons, member?_obj, hwanted] at hleaf
      rw [lookup_apply_diff_cons hbase.ordered, get?_diffMembers hdesired.ordered, hwanted,
        hpresent, lookup_cons (.obj desired), member?_obj, hwanted]
      dsimp only
      rw [lookup_become_change?_obj hbelowFormed.ordered hwantedFormed.ordered]
      exact ih hbelowFormed hwantedFormed (NullFree.get? hfree hwanted).2 _ hdiffer hleaf

/-! ## The merge -/

/-- What the patch from the base to the desired object does under a path. -/
structure Merges (base desired current applied : Json) (path : List String) : Prop where
  /-- What the two agree on stays as it is. -/
  kept : ObjectsAlong base path → ObjectsAlong desired path → SameAt base desired path →
    applied.lookup path = current.lookup path
  /-- What they do not agree on becomes what is desired, unless that is an object. -/
  taken : ¬ SameAt base desired path → ¬ IsObjectAt desired path →
    applied.lookup path = desired.lookup path

/-- The patch between two objects merges their difference into every value, if no null is desired
in it. -/
theorem lookup_apply_diff {base desired : Members} (hbase : (obj base).WellFormed)
    (hdesired : (obj desired).WellFormed) (hfree : NullFree (.obj desired)) (current : Json)
    {path : List String} (hpath : path ≠ []) :
    Merges (.obj base) (.obj desired) current (apply (diff (.obj base) (.obj desired)) current)
      path := by
  cases path with
  | nil => exact absurd rfl hpath
  | cons name path =>
      constructor
      · intro halong hdesiredAlong hsame
        exact lookup_apply_diff_of_sameAt hbase hdesired current halong hdesiredAlong hsame
      · intro hdiffer hleaf
        exact lookup_apply_diff_of_differ hbase hdesired hfree current hdiffer hleaf

def sampleBase : Members := [("spec", .obj [("paused", .bool true), ("replicas", .int 2)])]

def sampleWish : Members := [("spec", .obj [("replicas", .int 3)])]

/-- Another writer has added an image and changed the replicas. -/
def sampleCurrent : Json := .obj [("spec", .obj [("image", .str "v2"), ("replicas", .int 7)])]

/-- The image stays, and the replicas become what is desired. -/
theorem lookup_apply_diff_sampleCurrent :
    (obj sampleBase).WellFormed ∧ (obj sampleWish).WellFormed ∧ NullFree (.obj sampleWish) ∧
      let applied := apply (diff (.obj sampleBase) (.obj sampleWish)) sampleCurrent
      Merges (.obj sampleBase) (.obj sampleWish) sampleCurrent applied ["spec", "image"] ∧
        Merges (.obj sampleBase) (.obj sampleWish) sampleCurrent applied ["spec", "replicas"] ∧
        applied.lookup ["spec", "replicas"] = some (.int 3) := by
  have hbase : (obj sampleBase).WellFormed := by
    simp only [sampleBase, WellFormed, WellFormedMembers]
    decide
  have hdesired : (obj sampleWish).WellFormed := by
    simp only [sampleWish, WellFormed, WellFormedMembers]
    decide
  have hfree : NullFree (.obj sampleWish) := by
    simp [sampleWish, NullFree, NullFreeMembers]
  have himage :=
    lookup_apply_diff hbase hdesired hfree sampleCurrent (List.cons_ne_nil "spec" ["image"])
  have hreplicas :=
    lookup_apply_diff hbase hdesired hfree sampleCurrent (List.cons_ne_nil "spec" ["replicas"])
  have hdiffer : ¬ SameAt (.obj sampleBase) (.obj sampleWish) ["spec", "replicas"] :=
    (by decide : ¬ (Json.int 2 == Json.int 3) = true)
  have hleaf : ¬ IsObjectAt (.obj sampleWish) ["spec", "replicas"] := by
    rintro ⟨members, hmembers⟩
    cases hmembers
  exact ⟨hbase, hdesired, hfree, himage, hreplicas, hreplicas.taken hdiffer hleaf⟩

end ReplicaKeeper.MergePatch
