/-!
# Entries

Finite maps as lists of key and value, written in increasing key order.  The members of a JSON
object, the labels of an object and the objects that a server holds are all entries.

`get?` is the view: `get?_insert` and `get?_erase` say what the two updates do to it, and both hold
for every list, ordered or not.  `Ordered` is the canonical form; `insert` and `erase` keep it.
-/

set_option autoImplicit false

namespace ReplicaKeeper

/-- A finite map from `κ` to `α`, one pair for each key. -/
abbrev Entries (κ α : Type) := List (κ × α)

namespace Entries

variable {κ α β : Type}

/-! ## Looking up -/

/-- The value under a key: that of the first pair with this key. -/
def get? [DecidableEq κ] : Entries κ α → κ → Option α
  | [], _ => none
  | (k, v) :: rest, key => if k = key then some v else get? rest key

/-- Whether a key has a value. -/
def contains [DecidableEq κ] (entries : Entries κ α) (key : κ) : Bool :=
  (get? entries key).isSome

/-- The keys, in the order of the entries. -/
def keys (entries : Entries κ α) : List κ := entries.map (·.1)

/-! ## Updates -/

/-- Sets the value under a key.  A new key goes in front of the first larger one. -/
def insert [DecidableEq κ] [LT κ] [DecidableLT κ] (key : κ) (value : α) :
    Entries κ α → Entries κ α
  | [] => [(key, value)]
  | (k, v) :: rest =>
      if k = key then (key, value) :: rest
      else if key < k then (key, value) :: (k, v) :: rest
      else (k, v) :: insert key value rest

/-- Removes a key with its value. -/
def erase [DecidableEq κ] (key : κ) (entries : Entries κ α) : Entries κ α :=
  entries.filter fun entry => entry.1 ≠ key

/-- The entries of a list of pairs, where a later pair replaces an earlier one of the same key. -/
def ofPairs [DecidableEq κ] [LT κ] [DecidableLT κ] (pairs : List (κ × α)) : Entries κ α :=
  pairs.foldl (fun entries pair => insert pair.1 pair.2 entries) []

/-! ## What a look-up finds after an update -/

section Lookup

variable [DecidableEq κ]

@[simp] theorem get?_nil (key : κ) : get? ([] : Entries κ α) key = none := rfl

theorem get?_cons (k : κ) (v : α) (rest : Entries κ α) (key : κ) :
    get? ((k, v) :: rest) key = if k = key then some v else get? rest key := rfl

theorem get?_insert [LT κ] [DecidableLT κ] (key : κ) (value : α) (entries : Entries κ α)
    (other : κ) :
    get? (insert key value entries) other =
      if key = other then some value else get? entries other := by
  induction entries with
  | nil => simp [insert, get?]
  | cons entry rest ih =>
      obtain ⟨k, v⟩ := entry
      by_cases hk : k = key
      · subst hk
        by_cases ho : k = other <;> simp [insert, get?, ho]
      · by_cases hlt : key < k
        · simp [insert, hk, hlt, get?]
        · by_cases ho : k = other
          · subst ho
            have : ¬ key = k := fun h => hk h.symm
            simp [insert, hk, hlt, get?, this]
          · simp [insert, hk, hlt, get?, ho, ih]

theorem get?_erase (key : κ) (entries : Entries κ α) (other : κ) :
    get? (erase key entries) other = if key = other then none else get? entries other := by
  induction entries with
  | nil => simp [erase]
  | cons entry rest ih =>
      obtain ⟨k, v⟩ := entry
      unfold erase at ih ⊢
      by_cases hk : k = key
      · subst hk
        by_cases ho : k = other <;> simp_all [get?]
      · by_cases ho : k = other
        · subst ho
          have : ¬ key = k := fun h => hk h.symm
          simp [hk, get?, this]
        · simpa [hk, get?, ho] using ih

theorem get?_eq_none_iff (entries : Entries κ α) (key : κ) :
    get? entries key = none ↔ key ∉ keys entries := by
  induction entries with
  | nil => simp [keys]
  | cons entry rest ih =>
      obtain ⟨k, v⟩ := entry
      by_cases hk : k = key
      · simp [get?, keys, hk]
      · have : ¬ key = k := fun h => hk h.symm
        simpa [get?, keys, hk, this] using ih

theorem mem_of_get?_eq_some {entries : Entries κ α} {key : κ} {value : α}
    (h : get? entries key = some value) : (key, value) ∈ entries := by
  induction entries with
  | nil => simp at h
  | cons entry rest ih =>
      obtain ⟨k, v⟩ := entry
      by_cases hk : k = key
      · simp_all [get?]
      · simp [get?, hk] at h
        exact List.mem_cons_of_mem _ (ih h)

/-- Where no key occurs twice, every entry is found. -/
theorem get?_of_mem {entries : Entries κ α} (h : (keys entries).Nodup) {key : κ} {value : α}
    (hmem : (key, value) ∈ entries) : get? entries key = some value := by
  induction entries with
  | nil => cases hmem
  | cons entry entries ih =>
      obtain ⟨first, other⟩ := entry
      obtain ⟨hnew, hrest⟩ := List.nodup_cons.1 h
      rw [get?_cons]
      rcases List.mem_cons.1 hmem with heq | hmem
      · cases heq
        exact if_pos rfl
      · rw [if_neg]
        · exact ih hrest hmem
        · rintro rfl
          exact hnew (List.mem_map.2 ⟨_, hmem, rfl⟩)

/-- All entries but the new one were there before. -/
theorem eq_or_mem_of_mem_insert [LT κ] [DecidableLT κ] {key : κ} {value : α}
    {entries : Entries κ α} {entry : κ × α} (h : entry ∈ insert key value entries) :
    entry = (key, value) ∨ entry ∈ entries := by
  induction entries with
  | nil => exact .inl (List.mem_singleton.1 h)
  | cons head rest ih =>
      obtain ⟨k, v⟩ := head
      unfold insert at h
      split at h
      · exact (List.mem_cons.1 h).imp_right (List.mem_cons_of_mem _)
      · split at h
        · exact List.mem_cons.1 h
        · rcases List.mem_cons.1 h with rfl | hmem
          · exact .inr (List.mem_cons_self ..)
          · exact (ih hmem).imp_right (List.mem_cons_of_mem _)

end Lookup

/-! ## The canonical form -/

/-- Keys strictly increase, so that no key occurs twice. -/
def Ordered [LT κ] (entries : Entries κ α) : Prop :=
  entries.Pairwise fun left right => left.1 < right.1

instance [LT κ] [DecidableLT κ] (entries : Entries κ α) : Decidable (Ordered entries) :=
  inferInstanceAs (Decidable (List.Pairwise _ _))

@[simp] theorem ordered_nil [LT κ] : Ordered ([] : Entries κ α) := List.Pairwise.nil

theorem Ordered.erase [DecidableEq κ] [LT κ] {entries : Entries κ α} (h : Ordered entries)
    (key : κ) : Ordered (erase key entries) :=
  List.Pairwise.filter _ h

theorem Ordered.insert [DecidableEq κ] [LT κ] [DecidableLT κ] {entries : Entries κ α}
    (trans : ∀ {a b c : κ}, a < b → b < c → a < c)
    (total : ∀ {a b : κ}, ¬ a < b → ¬ b = a → b < a)
    (h : Ordered entries) (key : κ) (value : α) : Ordered (insert key value entries) := by
  induction entries with
  | nil => simp [Entries.insert, Ordered]
  | cons head rest ih =>
      obtain ⟨k, v⟩ := head
      have hrest : Ordered rest := List.Pairwise.of_cons h
      have hhead : ∀ entry ∈ rest, k < entry.1 := (List.pairwise_cons.1 h).1
      unfold Entries.insert
      split
      · next hk => subst hk; exact List.pairwise_cons.2 ⟨hhead, hrest⟩
      · next hk =>
        split
        · next hlt =>
          refine List.pairwise_cons.2 ⟨?_, h⟩
          intro entry hentry
          rcases List.mem_cons.1 hentry with rfl | hmem
          · exact hlt
          · exact trans hlt (hhead _ hmem)
        · next hlt =>
          refine List.pairwise_cons.2 ⟨?_, ih hrest⟩
          intro entry hentry
          rcases eq_or_mem_of_mem_insert hentry with rfl | hmem
          · exact total hlt hk
          · exact hhead _ hmem

/-- A key that comes after all others goes to the end. -/
theorem insert_eq_append [DecidableEq κ] [LT κ] [DecidableLT κ]
    (trans : ∀ {a b c : κ}, a < b → b < c → a < c) (irrefl : ∀ {a : κ}, ¬ a < a)
    {entries : Entries κ α} {key : κ} (value : α) (h : ∀ entry ∈ entries, entry.1 < key) :
    insert key value entries = entries ++ [(key, value)] := by
  induction entries with
  | nil => rfl
  | cons entry rest ih =>
      obtain ⟨k, v⟩ := entry
      have hk : k < key := h (k, v) (List.mem_cons_self ..)
      have hne : k ≠ key := fun heq => irrefl (heq ▸ hk)
      have hlt : ¬ key < k := fun hkey => irrefl (trans hk hkey)
      simp [insert, hne, hlt, ih fun entry hentry => h entry (List.mem_cons_of_mem _ hentry)]

/-- Ordered entries are the entries of their own pairs. -/
theorem Ordered.ofPairs_eq [DecidableEq κ] [LT κ] [DecidableLT κ]
    (trans : ∀ {a b c : κ}, a < b → b < c → a < c) (irrefl : ∀ {a : κ}, ¬ a < a)
    {entries : Entries κ α} (h : Ordered entries) : ofPairs entries = entries := by
  have append : ∀ (pairs start : Entries κ α), Ordered (start ++ pairs) →
      pairs.foldl (fun entries pair => Entries.insert pair.1 pair.2 entries) start =
        start ++ pairs := by
    intro pairs
    induction pairs with
    | nil => intro start _; simp
    | cons pair rest ih =>
        intro start hordered
        have hlast : ∀ entry ∈ start, entry.1 < pair.1 := fun entry hentry =>
          (List.pairwise_append.1 hordered).2.2 entry hentry pair (List.mem_cons_self ..)
        rw [List.foldl_cons, insert_eq_append trans irrefl pair.2 hlast,
          ih _ (by simpa using hordered)]
        simp
  exact append entries [] h

/-- Two ordered lists of entries are equal when every look-up agrees. -/
theorem Ordered.ext [DecidableEq κ] [LT κ]
    (trans : ∀ {a b c : κ}, a < b → b < c → a < c) (irrefl : ∀ {a : κ}, ¬ a < a)
    {left right : Entries κ α} (hleft : Ordered left) (hright : Ordered right)
    (h : ∀ key, get? left key = get? right key) : left = right := by
  have absent : ∀ {k : κ} {rest : Entries κ α}, (∀ entry ∈ rest, k < entry.1) →
      get? rest k = none := by
    intro k rest hrest
    rw [get?_eq_none_iff]
    intro hk
    obtain ⟨entry, hentry, rfl⟩ := List.mem_map.1 hk
    exact irrefl (hrest _ hentry)
  induction left generalizing right with
  | nil =>
      cases right with
      | nil => rfl
      | cons head rest => simpa [get?] using h head.1
  | cons head rest ih =>
      obtain ⟨k, v⟩ := head
      cases right with
      | nil => simpa [get?] using h k
      | cons head' rest' =>
          obtain ⟨k', v'⟩ := head'
          have hl := (List.pairwise_cons.1 hleft).1
          have hr := (List.pairwise_cons.1 hright).1
          have hkey : k = k' := by
            apply Classical.byContradiction
            intro hne
            have hne' : ¬ k' = k := fun h => hne h.symm
            have h1 : get? rest' k = some v := by
              have := h k
              simpa [get?, hne'] using this.symm
            have h2 : get? rest k' = some v' := by
              have := h k'
              simpa [get?, hne] using this
            exact irrefl (trans (hl _ (mem_of_get?_eq_some h2)) (hr _ (mem_of_get?_eq_some h1)))
          subst hkey
          have hval : v = v' := by simpa [get?] using h k
          subst hval
          congr 1
          refine ih (List.Pairwise.of_cons hleft) (List.Pairwise.of_cons hright) ?_
          intro key
          by_cases hk : k = key
          · subst hk
            rw [absent hl, absent hr]
          · simpa [get?, hk] using h key

end Entries

end ReplicaKeeper
