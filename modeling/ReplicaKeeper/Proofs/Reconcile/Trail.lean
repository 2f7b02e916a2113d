import ReplicaKeeper.Proofs.Reconcile.Course

/-!
# Where the calls of a reconcile lead

A world is led to another one by calls that are made one after another, `Store.Leads`.  A reconcile
leaves the world to which its own calls lead, `reconcile_leads`, and keeps whatever every call keeps,
`reconcile_keeps`.  Its calls are those of a course with the report of the finding at the end,
`reconcile_course`.
-/

set_option autoImplicit false

namespace ReplicaKeeper

variable {σ : Type}

/-! ## Worlds and calls -/

/-- The calls are made one after another, answered as recorded, and lead to the other world. -/
inductive Store.Leads (store : Store σ) : σ → List StoreCall → σ → Prop
  | nil (world : σ) : Leads store world [] world
  | gotScaler {world last : σ} {calls : List StoreCall} (key : Key)
      (hrest : Leads store (store.getScaler key world).2 calls last) :
      Leads store world (.gotScaler key (store.getScaler key world).1 :: calls) last
  | sent {world last : σ} {calls : List StoreCall} (request : Request)
      (hrest : Leads store (store.send request world).2 calls last) :
      Leads store world (.sent request (store.send request world).1 :: calls) last

namespace Store.Leads

variable {store : Store σ}

/-- Calls that follow each other lead over a world in between. -/
theorem append_iff {first last : σ} {calls more : List StoreCall} :
    store.Leads first (calls ++ more) last ↔
      ∃ between, store.Leads first calls between ∧ store.Leads between more last := by
  induction calls generalizing first with
  | nil =>
      constructor
      · intro h
        exact ⟨first, .nil first, h⟩
      · rintro ⟨between, hnone, h⟩
        cases hnone
        exact h
  | cons call calls ih =>
      constructor
      · intro h
        cases h with
        | gotScaler key hrest =>
            obtain ⟨between, hcalls, hmore⟩ := ih.1 hrest
            exact ⟨between, .gotScaler key hcalls, hmore⟩
        | sent request hrest =>
            obtain ⟨between, hcalls, hmore⟩ := ih.1 hrest
            exact ⟨between, .sent request hcalls, hmore⟩
      · rintro ⟨between, hcalls, hmore⟩
        cases hcalls with
        | gotScaler key hrest => exact .gotScaler key (ih.2 ⟨between, hrest, hmore⟩)
        | sent request hrest => exact .sent request (ih.2 ⟨between, hrest, hmore⟩)

theorem of_gotScaler {first last : σ} {key : Key} {answer : Except ApiError Scaler}
    {calls : List StoreCall} (h : store.Leads first (.gotScaler key answer :: calls) last) :
    store.Leads (store.getScaler key first).2 calls last := by
  cases h with
  | gotScaler _ hrest => exact hrest

theorem answer_of_gotScaler {first last : σ} {key : Key} {answer : Except ApiError Scaler}
    {calls : List StoreCall} (h : store.Leads first (.gotScaler key answer :: calls) last) :
    (store.getScaler key first).1 = answer := by
  cases h with
  | gotScaler _ hrest => rfl

theorem of_sent {first last : σ} {request : Request} {response : Response}
    {calls : List StoreCall} (h : store.Leads first (.sent request response :: calls) last) :
    response = (store.send request first).1 ∧
      store.Leads (store.send request first).2 calls last := by
  cases h with
  | sent _ hrest => exact ⟨rfl, hrest⟩

/-- The last call of a trail. -/
theorem sent_iff {first last : σ} {request : Request} {response : Response} :
    store.Leads first [.sent request response] last ↔
      store.send request first = (response, last) := by
  constructor
  · intro h
    cases h with
    | sent _ hrest =>
        cases hrest
        rfl
  · intro h
    obtain ⟨rfl, rfl⟩ := Prod.mk.inj h
    exact .sent request (.nil _)

/-- A trail keeps what every call keeps. -/
theorem keeps {P : σ → Prop} (hget : ∀ key world, P world → P (store.getScaler key world).2)
    (hsend : ∀ request world, P world → P (store.send request world).2) {first last : σ}
    {calls : List StoreCall} (hleads : store.Leads first calls last) (h : P first) : P last := by
  induction hleads with
  | nil world => exact h
  | gotScaler key hrest ih => exact ih (hget key _ h)
  | sent request hrest ih => exact ih (hsend request _ h)

end Store.Leads

namespace Reconcile

/-! ## What a reconcile keeps -/

section Keeps

variable {store : Store σ} {P : σ → Prop}

/-- A run keeps what every request keeps. -/
theorem Session.run_keeps (hsend : ∀ request world, P world → P (store.send request world).2)
    (now : Time) (config : Config) (session : Session) {world : σ} (h : P world) :
    P (session.run now config store world).2 := by
  fun_induction Session.run now config store session world with
  | case1 session world hfinal hnone => exact h
  | case2 session world hfinal error herror => exact h
  | case3 session world hfinal next ih =>
      refine ih ?_
      cases hrequest : (session.nextStep now config).2 with
      | none =>
          have hnext := advance_of_none store world hrequest
          exact (congrArg (fun next => P next.2) hnext).mpr h
      | some request =>
          have hnext := advance_of_some store world hrequest
          exact (congrArg (fun next => P next.2) hnext).mpr (hsend request world h)

/-- A reconcile keeps what every call keeps. -/
theorem reconcile_keeps (hget : ∀ key world, P world → P (store.getScaler key world).2)
    (hsend : ∀ request world, P world → P (store.send request world).2)
    (now : Time) (config : Config) (key : Key) {world : σ} (h : P world) :
    P (reconcile now config store key world).2 := by
  cases hread : (store.getScaler key world).1 with
  | error error =>
      rw [reconcile_of_error now config store hread]
      exact hget key world h
  | ok scaler =>
      rw [reconcile_of_ok now config store hread]
      exact Session.run_keeps hsend now config _ (hget key world h)

end Keeps

/-! ## The trail of a reconcile -/

variable (now : Time) (config : Config) (store : Store σ) (key : Key) (world : σ)

/-- The calls of a reconcile lead to the world that it leaves. -/
theorem reconcile_leads :
    store.Leads world (calls now config store key world)
      (reconcile now config store key world).2 := by
  have hrecorded : store.Leads world
      (reconcile now config store.recording key (world, [])).2.2
      (reconcile now config store.recording key (world, [])).2.1 := by
    let Kept (recorded : σ × List StoreCall) : Prop := store.Leads world recorded.2 recorded.1
    refine reconcile_keeps (P := Kept)
      (fun key recorded h => ?_) (fun request recorded h => ?_) now config key (.nil world)
    · exact Store.Leads.append_iff.2 ⟨recorded.1, h, .gotScaler key (.nil _)⟩
    · rw [store.send_recording]
      exact Store.Leads.append_iff.2 ⟨recorded.1, h, .sent request (.nil _)⟩
  rw [reconcile_recording] at hrecorded
  exact hrecorded

variable {key world} in
/-- A reconcile that could read its scaler follows a course and reports the finding in the end. -/
theorem reconcile_course {scaler : Scaler} (hread : (store.getScaler key world).1 = .ok scaler) :
    ∃ searched finding answer,
      Course config scaler searched finding ∧
      calls now config store key world =
        .gotScaler key (.ok scaler) :: searched ++
          [.sent (.updateStatus (scaler.reporting (finding.condition config now)))
            (.statusUpdated answer)] ∧
      (reconcile now config store key world).1 =
        (finding.conclude config answer).mapError .stepFailed := by
  obtain ⟨searched, hcourse, hsearched⟩ := examine_course config store scaler
    (store.getScaler key world).2 []
  have hrun := run_eq now config store.recording scaler ((store.getScaler key world).2, [])
  dsimp only at hrun
  generalize examine config store.recording scaler ((store.getScaler key world).2, []) = found
    at hcourse hsearched hrun
  obtain ⟨finding, after, made⟩ := found
  obtain rfl : made = searched := hsearched
  rw [Session.run_recording, announce, Store.updateStatus_recording] at hrun
  dsimp only at hrun
  generalize store.updateStatus (scaler.reporting (finding.condition config now)) after = written
    at hrun
  obtain ⟨answer, last⟩ := written
  obtain ⟨hresult, -, hcalls⟩ : _ ∧ _ ∧ _ := by simpa only [Prod.mk.injEq] using hrun
  refine ⟨made, finding, answer, hcourse, ?_, ?_⟩
  · rw [calls_of_ok now config store hread, ← List.nil_append (Session.calls ..), hcalls]
    rfl
  · rw [reconcile_of_ok now config store hread]
    exact congrArg (Except.mapError ReconcileError.stepFailed) hresult

end Reconcile

end ReplicaKeeper
