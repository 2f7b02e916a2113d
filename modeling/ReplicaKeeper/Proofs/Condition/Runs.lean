import ReplicaKeeper.Proofs.Condition

/-!
# Since when a condition holds

A status that is told conditions one after another shows the earliest condition of the run of
equivalent ones that is still going on, `endingRun_lasting`.  The transition time that it shows is
therefore the moment since which the last condition has been true, as far as the status was told.

Nothing else in the status changes, and it holds one more condition only if it had none of the type
before.  `set_history` says so for every row of conditions, however it is divided into calls.
-/

set_option autoImplicit false

namespace ReplicaKeeper

namespace Condition

/-! ## Runs -/

section Equivalence

variable {first second third : Condition}

theorem equivalent_self (condition : Condition) : condition.equivalent condition = true := by
  simp [equivalent]

theorem equivalent_symm (h : first.equivalent second = true) : second.equivalent first = true := by
  obtain ⟨htype, hstatus, hreason, hmessage⟩ := (equivalent_iff _ _).1 h
  exact (equivalent_iff _ _).2 ⟨htype.symm, hstatus.symm, hreason.symm, hmessage.symm⟩

theorem equivalent_trans (h : first.equivalent second = true)
    (hnext : second.equivalent third = true) : first.equivalent third = true := by
  obtain ⟨htype, hstatus, hreason, hmessage⟩ := (equivalent_iff _ _).1 h
  obtain ⟨htype', hstatus', hreason', hmessage'⟩ := (equivalent_iff _ _).1 hnext
  exact (equivalent_iff _ _).2 ⟨htype.trans htype', hstatus.trans hstatus',
    hreason.trans hreason', hmessage.trans hmessage'⟩

end Equivalence

/-- Any two of the conditions are equivalent. -/
def AllEquivalent (conditions : List Condition) : Prop :=
  conditions.Pairwise fun earlier later => earlier.equivalent later = true

/-- The longest run of equivalent conditions that ends a sequence. -/
structure EndingRun (sequence run : List Condition) : Prop where
  ends : run <:+ sequence
  equivalent : AllEquivalent run
  longest : ∀ other : List Condition, other <:+ sequence → AllEquivalent other →
    other.length ≤ run.length

section Runs

variable {sequence others : List Condition} {present new : Condition}

theorem endingRun_singleton (condition : Condition) : EndingRun [condition] [condition] where
  ends := List.suffix_rfl
  equivalent := List.pairwise_singleton _ _
  longest _ hends _ := hends.length_le

theorem EndingRun.equivalent_of_mem (h : EndingRun sequence (present :: others))
    {condition : Condition} (hmem : condition ∈ present :: others) :
    present.equivalent condition = true := by
  rcases List.mem_cons.1 hmem with rfl | hmem
  · exact equivalent_self condition
  · exact List.rel_of_pairwise_cons h.equivalent hmem

/-- The last condition of a sequence is in its ending run. -/
theorem EndingRun.equivalent_last (h : EndingRun sequence (present :: others)) {last : Condition}
    (hlast : sequence.getLast? = some last) : present.equivalent last = true := by
  obtain ⟨before, rfl⟩ := h.ends
  have hfinal := List.getLast?_eq_some_getLast (List.cons_ne_nil present others)
  rw [List.getLast?_append, hfinal, Option.some_or] at hlast
  exact h.equivalent_of_mem (List.mem_of_getLast? (hfinal.trans hlast))

/-- A run that ends the longer sequence is a run of the shorter one with the new condition. -/
theorem EndingRun.of_append (h : EndingRun sequence (present :: others)) {other : List Condition}
    (hends : other <:+ sequence ++ [new]) (hequivalent : AllEquivalent other) :
    other = [] ∨ ∃ front, other = front ++ [new] ∧ front <:+ present :: others ∧
      ∀ condition ∈ front, condition.equivalent new = true := by
  rcases List.suffix_concat_iff.1 hends with rfl | ⟨front, rfl, hfront⟩
  · exact .inl rfl
  · obtain ⟨hpairwise, -, hnew⟩ := List.pairwise_append.1 hequivalent
    refine .inr ⟨front, rfl, ?_, fun condition hmem => hnew condition hmem new (by simp)⟩
    exact List.suffix_of_suffix_length_le hfront h.ends (h.longest front hfront hpairwise)

/-- An equivalent condition makes the run longer. -/
theorem EndingRun.longer (h : EndingRun sequence (present :: others))
    (hsame : present.equivalent new = true) :
    EndingRun (sequence ++ [new]) (present :: (others ++ [new])) where
  ends := by
    obtain ⟨before, hbefore⟩ := h.ends
    exact ⟨before, by rw [← hbefore]; simp⟩
  equivalent := by
    have hnew : ∀ condition ∈ present :: others, ∀ later ∈ [new],
        condition.equivalent later = true := by
      intro condition hmem later hlater
      rw [List.mem_singleton.1 hlater]
      exact equivalent_trans (equivalent_symm (h.equivalent_of_mem hmem)) hsame
    have hwhole : AllEquivalent ((present :: others) ++ [new]) :=
      List.pairwise_append.2 ⟨h.equivalent, List.pairwise_singleton _ _, hnew⟩
    exact hwhole
  longest other hends hequivalent := by
    rcases h.of_append hends hequivalent with rfl | ⟨front, rfl, hfront, -⟩
    · exact Nat.zero_le _
    · have hlength := hfront.length_le
      simp only [List.length_append, List.length_cons] at hlength ⊢
      omega

/-- A condition that says something else starts a new run. -/
theorem EndingRun.anew (h : EndingRun sequence (present :: others))
    (hother : present.equivalent new = false) : EndingRun (sequence ++ [new]) [new] where
  ends := List.suffix_append sequence [new]
  equivalent := List.pairwise_singleton _ _
  longest other hends hequivalent := by
    rcases h.of_append hends hequivalent with rfl | ⟨front, rfl, hfront, hnew⟩
    · exact Nat.zero_le _
    · -- Whatever stood before the new condition in its run would make it equivalent to the old one.
      cases front with
      | nil => exact Nat.le_refl _
      | cons condition front =>
          have hold := h.equivalent_of_mem (hfront.subset List.mem_cons_self)
          have hsame := equivalent_trans hold (hnew condition List.mem_cons_self)
          rw [hother] at hsame
          cases hsame

end Runs

/-! ## The condition that lasts -/

/-- What a first condition becomes when others are set. -/
def lasting (first : Condition) (rest : List Condition) : Condition :=
  rest.foldl (fun present new => if present.equivalent new then present else new) first

theorem EndingRun.lasting {sequence others : List Condition} {present : Condition}
    (h : EndingRun sequence (present :: others)) (rest : List Condition) :
    ∃ later, EndingRun (sequence ++ rest) (present.lasting rest :: later) := by
  induction rest generalizing sequence others present with
  | nil =>
      rw [List.append_nil]
      exact ⟨others, h⟩
  | cons new rest ih =>
      have hsplit : sequence ++ new :: rest = sequence ++ [new] ++ rest := by simp
      rw [hsplit, Condition.lasting, List.foldl_cons]
      cases hsame : present.equivalent new with
      | true => exact ih (h.longer hsame)
      | false => exact ih (h.anew hsame)

/-- The condition that lasts is the first one of the run that ends the sequence. -/
theorem endingRun_lasting (first : Condition) (rest : List Condition) :
    ∃ later, EndingRun (first :: rest) (first.lasting rest :: later) :=
  (endingRun_singleton first).lasting rest

theorem type_lasting {type : ConditionType} {first : Condition} {rest : List Condition}
    (hfirst : first.type = type) (hrest : ∀ condition ∈ rest, condition.type = type) :
    (first.lasting rest).type = type := by
  obtain ⟨later, hrun⟩ := endingRun_lasting first rest
  have hmem : first.lasting rest ∈ first :: rest := hrun.ends.subset List.mem_cons_self
  rcases List.mem_cons.1 hmem with hsame | hmem
  · exact (congrArg Condition.type hsame).trans hfirst
  · exact hrest _ hmem

/-! ## Setting conditions of one type -/

section Setting

variable {type : ConditionType} {earlier later : List Condition}

/-- A condition goes past those of other types. -/
theorem set_append {condition : Condition}
    (hearlier : ∀ other ∈ earlier, other.type ≠ condition.type) (rest : List Condition) :
    set condition (earlier ++ rest) = earlier ++ set condition rest := by
  induction earlier with
  | nil => rfl
  | cons first earlier ih =>
      have hfirst : first.type ≠ condition.type := hearlier first List.mem_cons_self
      have hothers : ∀ other ∈ earlier, other.type ≠ condition.type := fun other hmem =>
        hearlier other (List.mem_cons_of_mem _ hmem)
      rw [List.cons_append, set, if_neg hfirst, ih hothers, List.cons_append]

/-- Where there is a condition of the type, the condition that lasts takes its place. -/
theorem setAll_of_present {present : Condition} {passed : List Condition}
    (hearlier : ∀ other ∈ earlier, other.type ≠ type) (hpresent : present.type = type)
    (hpassed : ∀ condition ∈ passed, condition.type = type) :
    setAll passed (earlier ++ present :: later) =
      earlier ++ present.lasting passed :: later := by
  induction passed generalizing present with
  | nil => rfl
  | cons new passed ih =>
      have hnew : new.type = type := hpassed new List.mem_cons_self
      have hrest : ∀ condition ∈ passed, condition.type = type := fun condition hmem =>
        hpassed condition (List.mem_cons_of_mem _ hmem)
      have hset : set new (earlier ++ present :: later) =
          earlier ++ (if present.equivalent new then present else new) :: later := by
        rw [set_append (hnew ▸ hearlier), set, if_pos (hpresent.trans hnew.symm)]
        split <;> rfl
      rw [setAll, List.foldl_cons, hset]
      refine ih ?_ hrest
      split
      · exact hpresent
      · exact hnew

/-- Where there is none, the condition that lasts goes to the end. -/
theorem setAll_of_absent {first : Condition} {passed : List Condition}
    (hearlier : ∀ other ∈ earlier, other.type ≠ type) (hfirst : first.type = type)
    (hpassed : ∀ condition ∈ passed, condition.type = type) :
    setAll (first :: passed) earlier = earlier ++ [first.lasting passed] := by
  have hset : set first earlier = earlier ++ [first] := by
    have hend := set_append (hfirst ▸ hearlier) []
    rw [List.append_nil] at hend
    rw [hend, set]
  rw [setAll, List.foldl_cons, hset]
  exact setAll_of_present hearlier hfirst hpassed

theorem find?_append {found : Condition} (hearlier : ∀ other ∈ earlier, other.type ≠ type)
    (hfound : found.type = type) : find? type (earlier ++ found :: later) = some found := by
  refine List.find?_eq_some_iff_append.2 ⟨decide_eq_true hfound, earlier, later, rfl, ?_⟩
  simpa using hearlier

theorem find?_eq_none_iff (type : ConditionType) (conditions : List Condition) :
    find? type conditions = none ↔ ∀ other ∈ conditions, other.type ≠ type := by
  simp [find?]

theorem exists_split_of_find? {conditions : List Condition} {present : Condition}
    (h : find? type conditions = some present) :
    ∃ earlier later, conditions = earlier ++ present :: later ∧ present.type = type ∧
      ∀ other ∈ earlier, other.type ≠ type := by
  obtain ⟨hpresent, earlier, later, hsplit, hearlier⟩ := List.find?_eq_some_iff_append.1 h
  exact ⟨earlier, later, hsplit, of_decide_eq_true hpresent, by simpa using hearlier⟩

/-- Of the conditions that are set the earliest of the ending run is found, and no other condition
changes. -/
theorem exists_endingRun_setAll {passed : List Condition} (hne : passed ≠ [])
    (hpassed : ∀ condition ∈ passed, condition.type = type) (conditions : List Condition) :
    ∃ earliest later,
      EndingRun ((find? type conditions).toList ++ passed) (earliest :: later) ∧
        find? type (setAll passed conditions) = some earliest ∧
        Renewed type conditions (setAll passed conditions) := by
  cases hfound : find? type conditions with
  | none =>
      have hearlier := (find?_eq_none_iff type conditions).1 hfound
      cases passed with
      | nil => exact absurd rfl hne
      | cons first rest =>
          have hfirst : first.type = type := hpassed first List.mem_cons_self
          have hrest : ∀ condition ∈ rest, condition.type = type := fun condition hmem =>
            hpassed condition (List.mem_cons_of_mem _ hmem)
          have hlasting := type_lasting hfirst hrest
          obtain ⟨later, hrun⟩ := endingRun_lasting first rest
          rw [setAll_of_absent hearlier hfirst hrest]
          exact ⟨_, later, hrun, find?_append hearlier hlasting, .added hearlier hlasting⟩
  | some present =>
      obtain ⟨earlier, after, rfl, hpresent, hearlier⟩ := exists_split_of_find? hfound
      have hlasting := type_lasting hpresent hpassed
      obtain ⟨later, hrun⟩ := endingRun_lasting present passed
      rw [setAll_of_present hearlier hpresent hpassed]
      exact ⟨_, later, hrun, find?_append hearlier hlasting,
        .replaced hearlier hpresent hlasting⟩

end Setting

/-! ## Conditions that are renewed -/

section Renewed

variable {type : ConditionType} {old new : List Condition}

/-- There is one more condition if and only if there was none of the type. -/
theorem Renewed.length (h : Renewed type old new) :
    new.length = old.length + if (find? type old).isSome then 0 else 1 := by
  cases h with
  | replaced hearlier hpresent hfound =>
      rw [find?_append hearlier hpresent]
      simp
  | added hearlier hfound =>
      rw [(find?_eq_none_iff type _).2 hearlier]
      simp

/-- Where no type occurred twice, none does so afterwards. -/
theorem Renewed.nodup (h : Renewed type old new) (hold : (old.map Condition.type).Nodup) :
    (new.map Condition.type).Nodup := by
  cases h with
  | replaced hearlier hpresent hfound =>
      rw [List.map_append, List.map_cons] at hold ⊢
      rw [hfound, ← hpresent]
      exact hold
  | @added _ found hearlier hfound =>
      have hother : ∀ earlier ∈ old.map Condition.type, earlier ≠ found.type := by
        intro earlier hmem
        obtain ⟨condition, hcondition, rfl⟩ := List.mem_map.1 hmem
        rw [hfound]
        exact hearlier condition hcondition
      rw [List.map_append]
      refine List.nodup_append.2 ⟨hold, by simp, fun earlier hmem last hlast => ?_⟩
      rw [List.mem_singleton.1 hlast]
      exact hother earlier hmem

end Renewed

end Condition

/-! ## Histories of a status -/

namespace ConditionedStatus

open Condition

/-- The status after some calls, each of which sets conditions one after another. -/
def setCalls (initial : ConditionedStatus) (calls : List (List Condition)) : ConditionedStatus :=
  calls.foldl (fun status news => status.set news) initial

/-- What a status has become when conditions of one type were passed, of which `last` came last. -/
structure Settled (type : ConditionType) (passed : List Condition) (last : Condition)
    (initial final : ConditionedStatus) : Prop where
  /-- The status shows the earliest condition of the run that ends the history, which starts with the
  condition that was shown at first; it says what the last one says. -/
  shows : ∃ earliest later,
    EndingRun ((initial.get? type).toList ++ passed) (earliest :: later) ∧
      final.get? type = some earliest ∧ earliest.equivalent last = true
  /-- All other conditions stay, in their order. -/
  renewed : Renewed type initial.conditions final.conditions
  length : final.conditions.length =
    initial.conditions.length + if (initial.get? type).isSome then 0 else 1
  single : (initial.conditions.map Condition.type).Nodup →
    (final.conditions.map Condition.type).Nodup

/-- Several calls set what one call with all conditions sets. -/
theorem conditions_setCalls (initial : ConditionedStatus) (calls : List (List Condition)) :
    (initial.setCalls calls).conditions = setAll calls.flatten initial.conditions := by
  induction calls generalizing initial with
  | nil => rfl
  | cons news calls ih =>
      have hcons : initial.setCalls (news :: calls) = (initial.set news).setCalls calls := rfl
      rw [hcons, ih, List.flatten_cons, setAll, setAll, List.foldl_append]
      rfl

theorem settled_setCalls {type : ConditionType} {calls : List (List Condition)}
    (htypes : ∀ condition ∈ calls.flatten, condition.type = type) {last : Condition}
    (hlast : calls.flatten.getLast? = some last) (initial : ConditionedStatus) :
    Settled type calls.flatten last initial (initial.setCalls calls) := by
  have hne : calls.flatten ≠ [] := by
    intro hnil
    rw [hnil] at hlast
    cases hlast
  obtain ⟨earliest, later, hrun, hfound, hrenewed⟩ :=
    exists_endingRun_setAll hne htypes initial.conditions
  rw [← conditions_setCalls] at hfound hrenewed
  refine ⟨⟨earliest, later, hrun, hfound, hrun.equivalent_last ?_⟩, hrenewed, hrenewed.length,
    hrenewed.nodup⟩
  rw [List.getLast?_append, hlast]
  rfl

/-- However conditions are passed to a status, it shows since when the last one holds. -/
theorem set_history (initial : ConditionedStatus) (calls : List (List Condition))
    {last : Condition} (hlast : calls.flatten.getLast? = some last) :
    Settled .synced calls.flatten last initial (initial.setCalls calls) := by
  have htypes : ∀ condition ∈ calls.flatten, condition.type = .synced := by
    intro condition _
    cases condition.type with
    | synced => rfl
  exact settled_setCalls htypes hlast initial

/-- A failure, and then successes in two calls, the last one with an older time. -/
def sampleCalls : List (List Condition) := [
  [.failure ⟨1, 0⟩ .cannotLocateWorkload "no workload"],
  [.success ⟨5, 0⟩, .success ⟨9, 0⟩],
  [.success ⟨7, 0⟩]]

theorem set_history_sampleCalls :
    sampleCalls.flatten.getLast? = some (.success ⟨7, 0⟩) ∧
      Settled .synced sampleCalls.flatten (.success ⟨7, 0⟩) {} (setCalls {} sampleCalls) :=
  ⟨rfl, set_history {} sampleCalls rfl⟩

/-- The success holds since it was passed for the first time. -/
example : (setCalls {} sampleCalls).get? .synced = some (Condition.success ⟨5, 0⟩) := by
  decide

end ConditionedStatus

end ReplicaKeeper
