import ReplicaKeeper.Proofs.MergePatch.ThreeWay

/-!
# What a patch mentions

A patch goes down its objects and says something only at their ends.  `Mentions` is that it says
something at a path, and `mentions_iff_of_sparse` reads all that a patch of two levels says from its
members.  A patch without nulls removes nothing on the way down, `isSome_lookup_apply`.
-/

set_option autoImplicit false

namespace ReplicaKeeper.MergePatch

open Entries Json

/-! ## Ends of a patch -/

/-- The patch says at the path that the value is to be there.  At an object with members it says
nothing yet, and as a whole it says nothing if it has no members. -/
def Mentions (patch : Json) (path : List String) (value : Json) : Prop :=
  path ≠ [] ∧ patch.lookup path = some value ∧ value.membersOrEmpty = []

/-- The change to members, where no members are no change. -/
def sparse : Members → Option Json
  | [] => none
  | members => some (.obj members)

theorem sparse_eq_some_iff {members : Members} {value : Json} :
    sparse members = some value ↔ members ≠ [] ∧ value = .obj members := by
  cases members with
  | nil => simp [sparse]
  | cons member members => simp [sparse, eq_comm]

/-- A change to members, read as one that is always there. -/
theorem getD_sparse (members : Members) : (sparse members).getD .emptyObject = .obj members := by
  cases members with
  | nil => rfl
  | cons member members => rfl

theorem sparse_insert (name : String) (value : Json) (members : Members) :
    sparse (insert name value members) = some (.obj (insert name value members)) := by
  refine sparse_eq_some_iff.2 ⟨fun hempty => ?_, rfl⟩
  have hfound := get?_insert name value members name
  rw [hempty, if_pos rfl] at hfound
  cases hfound

/-- No member is an object. -/
def Flat (members : Members) : Prop :=
  ∀ name value, get? members name = some value → value.isObject = false

theorem flat_nil : Flat [] := by
  intro name value hvalue
  cases hvalue

/-- What is said below flat members is one of them. -/
theorem lookup_flat_iff {members : Members} (hflat : Flat members) (hsome : members ≠ [])
    (path : List String) (value : Json) :
    ((Json.obj members).lookup path = some value ∧ value.membersOrEmpty = []) ↔
      ∃ field, path = [field] ∧ get? members field = some value := by
  constructor
  · rintro ⟨hlookup, hend⟩
    cases path with
    | nil =>
        cases hlookup
        exact absurd hend hsome
    | cons field deeper =>
        rw [lookup_cons, member?_obj] at hlookup
        obtain ⟨found, hfound, hbelow⟩ := Option.bind_eq_some_iff.1 hlookup
        cases deeper with
        | nil =>
            rw [lookup_nil] at hbelow
            cases hbelow
            exact ⟨field, rfl, hfound⟩
        | cons next deeper =>
            rw [lookup_cons_of_not_isObject (hflat field found hfound)] at hbelow
            cases hbelow
  · rintro ⟨field, rfl, hfound⟩
    exact ⟨(lookup_singleton members field).trans hfound,
      membersOrEmpty_eq_nil (hflat field value hfound)⟩

/-- A patch whose members are changes to flat members mentions these and nothing else. -/
theorem mentions_iff_of_sparse {patch : Json} {under : String → Members}
    (hunder : ∀ name, patch.member? name = sparse (under name)) (hflat : ∀ name, Flat (under name))
    (path : List String) (value : Json) :
    Mentions patch path value ↔
      ∃ name field, path = [name, field] ∧ get? (under name) field = some value := by
  constructor
  · rintro ⟨hpath, hlookup, hend⟩
    cases path with
    | nil => exact absurd rfl hpath
    | cons name rest =>
        rw [lookup_cons, hunder] at hlookup
        obtain ⟨member, hmember, hbelow⟩ := Option.bind_eq_some_iff.1 hlookup
        obtain ⟨hsome, rfl⟩ := sparse_eq_some_iff.1 hmember
        obtain ⟨field, rfl, hfound⟩ := (lookup_flat_iff (hflat name) hsome rest value).1 ⟨hbelow, hend⟩
        exact ⟨name, field, rfl, hfound⟩
  · rintro ⟨name, field, rfl, hfound⟩
    have hsome : under name ≠ [] := by
      intro hempty
      rw [hempty] at hfound
      cases hfound
    have hbelow := (lookup_flat_iff (hflat name) hsome [field] value).2 ⟨field, rfl, hfound⟩
    refine ⟨List.cons_ne_nil _ _, ?_, hbelow.2⟩
    rw [lookup_cons, hunder, sparse_eq_some_iff.2 ⟨hsome, rfl⟩]
    exact hbelow.1

/-! ## Patches without nulls -/

/-- Wherever a patch without nulls goes on below an object, all members of the object stay. -/
theorem isSome_lookup_apply {path : List String} :
    ∀ {patch target : Json}, patch.WellFormed → NullFree patch →
      ∀ {changes members : Members} {name : String}, patch.lookup path = some (.obj changes) →
        target.lookup path = some (.obj members) → (get? members name).isSome →
        ((apply patch target).lookup (path ++ [name])).isSome := by
  induction path with
  | nil =>
      intro patch target hformed hfree changes members name hpatch htarget hname
      rw [lookup_nil] at hpatch htarget
      cases hpatch
      cases htarget
      rw [apply_obj, List.nil_append, lookup_singleton, membersOrEmpty_obj,
        get?_applyMembers_eq_become hformed.ordered]
      cases hchange : get? changes name with
      | none => exact hname
      | some change =>
          have hisNull := (isNull_eq_false_iff change).2 (NullFree.get? hfree hchange).1
          rw [become_some hisNull]
          rfl
  | cons first path ih =>
      intro patch target hformed hfree changes members name hpatch htarget hname
      rw [lookup_cons] at hpatch htarget
      obtain ⟨change, hchange, hbelow⟩ := Option.bind_eq_some_iff.1 hpatch
      obtain ⟨found, hfound, hthere⟩ := Option.bind_eq_some_iff.1 htarget
      cases patch with
      | obj whole =>
          rw [member?_obj] at hchange
          obtain ⟨hnull, hchangeFree⟩ := NullFree.get? hfree hchange
          have hisNull := (isNull_eq_false_iff change).2 hnull
          rw [apply_obj, List.cons_append, lookup_cons, member?_obj,
            get?_applyMembers_eq_become hformed.ordered, hchange, become_some hisNull,
            Option.bind_some]
          unfold member? at hfound
          rw [hfound]
          exact ih (hformed.member? hchange) hchangeFree hbelow hthere hname
      | _ => cases hchange

/-- Members in order are plain when all that is found among them is. -/
theorem plain_of_get? {members : Members} (h : Ordered members)
    (hplain : ∀ name value, get? members name = some value → value.Plain) :
    (Json.obj members).Plain := by
  refine ⟨h, (plainMembers_iff _).2 fun member hmember => ?_⟩
  exact hplain member.1 member.2 (get?_of_mem (nodup_keys_of_ordered h) hmember)

end ReplicaKeeper.MergePatch
