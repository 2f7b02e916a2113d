import ReplicaKeeper.Object.Scaler

/-!
# What a status says after a report

Setting a condition keeps the present one of its type when that says the same, so what is found
afterwards may carry an older transition time.  In everything else it agrees with the condition that
was set: `find?_set` for a list of conditions, `synced?_reporting` for a scaler.
-/

set_option autoImplicit false

namespace ReplicaKeeper

namespace Condition

/-- Equivalent conditions agree in everything but the transition time. -/
theorem equivalent_iff (left right : Condition) :
    left.equivalent right = true ↔
      left.type = right.type ∧ left.status = right.status ∧ left.reason = right.reason ∧
        left.message = right.message := by
  simp [equivalent, and_assoc]

theorem find?_cons (type : ConditionType) (present : Condition) (rest : List Condition) :
    find? type (present :: rest) =
      if present.type = type then some present else find? type rest := by
  unfold find?
  rw [List.find?_cons]
  by_cases htype : present.type = type
  · rw [if_pos htype, decide_eq_true htype]
  · rw [if_neg htype, decide_eq_false htype]

/-- The first condition of the type that was set says what was set. -/
theorem find?_set (condition : Condition) (conditions : List Condition) :
    ∃ found, find? condition.type (set condition conditions) = some found ∧
      found.equivalent condition = true := by
  have hself : condition.equivalent condition = true := by simp [equivalent]
  induction conditions with
  | nil => exact ⟨condition, by rw [set, find?_cons, if_pos rfl], hself⟩
  | cons present rest ih =>
      unfold set
      by_cases htype : present.type = condition.type
      · by_cases hsame : present.equivalent condition = true
        · exact ⟨present, by rw [if_pos htype, if_pos hsame, find?_cons, if_pos htype], hsame⟩
        · exact ⟨condition, by rw [if_pos htype, if_neg hsame, find?_cons, if_pos rfl], hself⟩
      · obtain ⟨found, hfound, hequivalent⟩ := ih
        refine ⟨found, ?_, hequivalent⟩
        rw [if_neg htype]
        rw [find?_cons, if_neg htype]
        exact hfound

/-- The first condition of a type is renewed, or the first one is added at the end; the others stay
as they are. -/
inductive Renewed (type : ConditionType) : List Condition → List Condition → Prop
  | replaced {earlier later : List Condition} {present found : Condition}
      (hearlier : ∀ condition ∈ earlier, condition.type ≠ type) (hpresent : present.type = type)
      (hfound : found.type = type) :
      Renewed type (earlier ++ present :: later) (earlier ++ found :: later)
  | added {earlier : List Condition} {found : Condition}
      (hearlier : ∀ condition ∈ earlier, condition.type ≠ type) (hfound : found.type = type) :
      Renewed type earlier (earlier ++ [found])

/-- Setting a condition touches no other one than the first of its type. -/
theorem renewed_set (condition : Condition) (conditions : List Condition) :
    Renewed condition.type conditions (set condition conditions) := by
  induction conditions with
  | nil =>
      change Renewed condition.type [] ([] ++ [condition])
      exact .added (fun _ hmem => absurd hmem List.not_mem_nil) rfl
  | cons first rest ih =>
      have hnone : ∀ other ∈ ([] : List Condition), other.type ≠ condition.type :=
        fun _ hmem => absurd hmem List.not_mem_nil
      unfold set
      by_cases htype : first.type = condition.type
      · rw [if_pos htype]
        by_cases hsame : first.equivalent condition = true
        · rw [if_pos hsame]
          change Renewed condition.type ([] ++ first :: rest) ([] ++ first :: rest)
          exact .replaced hnone htype htype
        · rw [if_neg hsame]
          change Renewed condition.type ([] ++ first :: rest) ([] ++ condition :: rest)
          exact .replaced hnone htype rfl
      · rw [if_neg htype]
        have hcons {earlier : List Condition}
            (hearlier : ∀ other ∈ earlier, other.type ≠ condition.type) :
            ∀ other ∈ first :: earlier, other.type ≠ condition.type := by
          intro other hmem
          rcases List.mem_cons.1 hmem with rfl | hmem
          · exact htype
          · exact hearlier other hmem
        generalize set condition rest = after at ih
        cases ih with
        | @replaced earlier later present found hearlier hpresent hfound =>
            rw [← List.cons_append, ← List.cons_append]
            exact .replaced (hcons hearlier) hpresent hfound
        | added hearlier hfound => exact .added (hcons hearlier) hfound

/-- Setting a condition for a second time changes nothing, even at another moment. -/
theorem set_set {condition again : Condition} (hsame : condition.equivalent again = true)
    (conditions : List Condition) :
    set again (set condition conditions) = set condition conditions := by
  obtain ⟨htype, hstatus, hreason, hmessage⟩ := (equivalent_iff _ _).1 hsame
  have hequivalent (present : Condition) :
      present.equivalent again = present.equivalent condition := by
    rw [equivalent, equivalent, htype, hstatus, hreason, hmessage]
  induction conditions with
  | nil =>
      rw [set, set, if_pos htype, if_pos hsame]
  | cons first rest ih =>
      have hagain : first.type = again.type ↔ first.type = condition.type := by rw [htype]
      rw [set]
      by_cases hfirst : first.type = condition.type
      · rw [if_pos hfirst]
        by_cases hpresent : first.equivalent condition = true
        · rw [if_pos hpresent, set, if_pos (hagain.2 hfirst), hequivalent, if_pos hpresent]
        · rw [if_neg hpresent, set, if_pos htype, if_pos hsame]
      · rw [if_neg hfirst, set, if_neg (mt hagain.1 hfirst), ih]

end Condition

namespace Scaler

/-- The scaler with a condition set in its status. -/
def reporting (scaler : Scaler) (condition : Condition) : Scaler :=
  { scaler with status := some ((scaler.status.getD {}).set [condition]) }

/-- The scaler under another resource version. -/
def withVersion (version : Option String) (scaler : Scaler) : Scaler :=
  { scaler with metadata := { scaler.metadata with resourceVersion := version } }

/-- Two scalers that differ in their resource version and their first `synced` condition at most. -/
structure Rereported (old new : Scaler) : Prop where
  metadata : (new.withVersion none).metadata = (old.withVersion none).metadata
  spec : new.spec = old.spec
  conditions : Condition.Renewed .synced (old.status.getD {}).conditions
    (new.status.getD {}).conditions

/-- A report touches nothing else. -/
theorem rereported_reporting (scaler : Scaler) {condition : Condition}
    (htype : condition.type = .synced) (version : Option String) :
    scaler.Rereported ((scaler.reporting condition).withVersion version) := by
  refine ⟨rfl, rfl, ?_⟩
  rw [← htype]
  exact Condition.renewed_set condition _

/-- A report that says what the report before said changes nothing. -/
theorem reporting_reporting (scaler : Scaler) {condition again : Condition}
    (hsame : condition.equivalent again = true) (version : Option String) :
    ((scaler.reporting condition).withVersion version).reporting again =
      (scaler.reporting condition).withVersion version := by
  have hstatus : (⟨Condition.set again (Condition.set condition (scaler.status.getD {}).conditions)⟩ :
      ConditionedStatus) = ⟨Condition.set condition (scaler.status.getD {}).conditions⟩ := by
    rw [Condition.set_set hsame]
  exact congrArg (fun status =>
    ({ (scaler.reporting condition).withVersion version with status := some status } : Scaler))
    hstatus

/-- The `synced` condition of a scaler that reports one says what is reported. -/
theorem synced?_reporting (scaler : Scaler) {condition : Condition}
    (htype : condition.type = .synced) :
    ∃ found, (scaler.reporting condition).synced? = some found ∧
      found.equivalent condition = true := by
  obtain ⟨found, hfound, hequivalent⟩ :=
    Condition.find?_set condition (scaler.status.getD {}).conditions
  rw [htype] at hfound
  exact ⟨found, hfound, hequivalent⟩

end Scaler

end ReplicaKeeper
