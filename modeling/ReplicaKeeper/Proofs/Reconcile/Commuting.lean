import Mathlib.Data.List.Forall2
import ReplicaKeeper.Proofs.Reconcile.Outlook

/-!
# Reconciles that commute

Two reconciles of different scalers that read different Deployments do not affect each other: in
either order both have the same results, and they leave the same objects, apart from resource
versions and from transition times that were taken freshly, `reconcile_commutes`.

A reconcile leaves everything that the other one looks at, `Foretold.unaffected`; so what can be
told of the other one beforehand can be told of it afterwards.
-/

set_option autoImplicit false

namespace ReplicaKeeper

open Entries

/-! ## Conditions taken freshly -/

namespace Condition

/-- The conditions are the same, or they say the same and were taken freshly at the two moments. -/
def SameOrFresh (now later : Time) (left right : Condition) : Prop :=
  left = right ∨
    left.equivalent right = true ∧ left.lastTransitionTime = now ∧
      right.lastTransitionTime = later

/-- Setting equivalent conditions changes nothing, or it sets both freshly. -/
theorem sameOrFresh_set {fresh other : Condition} (h : fresh.equivalent other = true)
    (conditions : List Condition) :
    List.Forall₂ (SameOrFresh fresh.lastTransitionTime other.lastTransitionTime)
      (set fresh conditions) (set other conditions) := by
  obtain ⟨htype, hstatus, hreason, hmessage⟩ := (equivalent_iff _ _).1 h
  have hboth : SameOrFresh fresh.lastTransitionTime other.lastTransitionTime fresh other :=
    .inr ⟨h, rfl, rfl⟩
  have hsame (rest : List Condition) : List.Forall₂
      (SameOrFresh fresh.lastTransitionTime other.lastTransitionTime) rest rest :=
    List.forall₂_same.2 fun _ _ => .inl rfl
  induction conditions with
  | nil => exact .cons hboth .nil
  | cons present rest ih =>
      have hequivalent : present.equivalent other = present.equivalent fresh := by
        rw [equivalent, equivalent, htype, hstatus, hreason, hmessage]
      rw [set, set, ← htype, hequivalent]
      by_cases hpresent : present.type = fresh.type
      · rw [if_pos hpresent, if_pos hpresent]
        split
        · exact hsame _
        · exact .cons hboth (hsame rest)
      · rw [if_neg hpresent, if_neg hpresent]
        exact .cons (.inl rfl) ih

theorem SameOrFresh.symm {now later : Time} {left right : Condition}
    (h : SameOrFresh now later left right) : SameOrFresh later now right left := by
  rcases h with rfl | ⟨hequivalent, hleft, hright⟩
  · exact .inl rfl
  · obtain ⟨htype, hstatus, hreason, hmessage⟩ := (equivalent_iff _ _).1 hequivalent
    refine .inr ⟨?_, hright, hleft⟩
    exact (equivalent_iff _ _).2 ⟨htype.symm, hstatus.symm, hreason.symm, hmessage.symm⟩

end Condition

/-- Two scalers that differ in their versions and in conditions taken freshly at most. -/
structure Scaler.SameButFresh (now later : Time) (left right : Scaler) : Prop where
  metadata : (left.withVersion none).metadata = (right.withVersion none).metadata
  spec : left.spec = right.spec
  status : Option.Rel
    (fun left right : ConditionedStatus =>
      List.Forall₂ (Condition.SameOrFresh now later) left.conditions right.conditions)
    left.status right.status

/-- A relation of options can be turned around when the relation of their values can. -/
theorem rel_symm {α β : Type} {related : α → β → Prop} {turned : β → α → Prop}
    (hturn : ∀ left right, related left right → turned right left) {left : Option α}
    {right : Option β} (h : Option.Rel related left right) : Option.Rel turned right left := by
  cases h with
  | none => exact .none
  | some h => exact .some (hturn _ _ h)

theorem Scaler.SameButFresh.symm {now later : Time} {left right : Scaler}
    (h : SameButFresh now later left right) : SameButFresh later now right left := by
  refine ⟨h.metadata.symm, h.spec.symm, rel_symm (fun left right hconditions => ?_) h.status⟩
  exact .flip (hconditions.imp fun _ _ hsame => hsame.symm)

theorem Scaler.sameButFresh_reporting (scaler : Scaler) {fresh other : Condition}
    (h : fresh.equivalent other = true) (version another : Option String) :
    SameButFresh fresh.lastTransitionTime other.lastTransitionTime
      ((scaler.reporting fresh).withVersion version)
      ((scaler.reporting other).withVersion another) :=
  ⟨rfl, rfl, .some (Condition.sameOrFresh_set h _)⟩

namespace Reconcile

open Server

/-! ## What a reconcile looks at -/

/-- A reconcile of the scaler under the key looks at the same objects on both servers. -/
structure Unaffected (config : Config) (key : Key) (server later : Server) : Prop where
  scaler : Entries.get? later.scalers key = Entries.get? server.scalers key
  workloads : later.workloads = server.workloads
  contains_eq : ∀ other, contains later.deployments other = contains server.deployments other
  target : ∀ other, server.target? config key = some other →
    Entries.get? later.deployments other = Entries.get? server.deployments other

namespace Unaffected

variable {config : Config} {key : Key} {server later : Server}
  (h : Unaffected config key server later)

include h

theorem targetOf?_eq (scaler : Scaler) :
    later.targetOf? config scaler = server.targetOf? config scaler := by
  have hkeys : later.candidateKeys config scaler = server.candidateKeys config scaler := by
    rw [candidateKeys, h.workloads, candidateKeys]
  have hstored : (fun key => contains later.deployments key) =
      fun key => contains server.deployments key := funext h.contains_eq
  rw [targetOf?, hkeys, hstored, targetOf?]

theorem target?_eq : later.target? config key = server.target? config key := by
  rw [target?, target?, h.scaler]
  exact congrArg _ (funext h.targetOf?_eq)

theorem outlook_eq {scaler : Scaler} (hscaler : Entries.get? server.scalers key = some scaler) :
    later.outlook config scaler = server.outlook config scaler := by
  have htarget (other : Key) (hother : server.targetOf? config scaler = some other) :
      Entries.get? later.deployments other = Entries.get? server.deployments other := by
    refine h.target other ?_
    rw [target?, hscaler]
    exact hother
  rw [outlook, outlook, h.workloads, h.targetOf?_eq]
  cases hkey : server.targetOf? config scaler with
  | none => rfl
  | some other => simp only [htarget other hkey]

theorem verdict?_eq : verdict? config key later = verdict? config key server := by
  rw [verdict?, verdict?, h.scaler]
  cases hscaler : Entries.get? server.scalers key with
  | none => rfl
  | some scaler => exact congrArg some (h.outlook_eq hscaler)

end Unaffected

/-- The two reconciles do not read the same Deployment.  One that finds no workload, or another one
than its scaler points to, reads none. -/
def Apart (config : Config) (one other : Key) (server : Server) : Prop :=
  ∀ place, server.target? config one = some place → server.target? config other ≠ some place

theorem Apart.symm {config : Config} {one other : Key} {server : Server}
    (h : Apart config one other server) : Apart config other one server :=
  fun place hother hone => h place hone hother

section Runs

variable {config : Config} {one other : Key} {server : Server}

/-- With a target there is a scaler, and a Deployment. -/
theorem exists_of_target? {key place : Key} (h : server.target? config key = some place) :
    ∃ scaler fetched, Entries.get? server.scalers key = some scaler ∧
      server.targetOf? config scaler = some place ∧
      Entries.get? server.deployments place = some fetched := by
  obtain ⟨scaler, hscaler, htarget⟩ := Option.bind_eq_some_iff.1 h
  obtain ⟨fetched, hfetched⟩ := exists_of_targetOf? htarget
  exact ⟨scaler, fetched, hscaler, htarget, hfetched⟩

/-- A reconcile leaves what another one looks at. -/
theorem Foretold.unaffected {now : Time} {after : Server}
    {result : Except ReconcileError Outcome} (h : Foretold now config other server after result)
    (hkeys : one ≠ other) (hapart : Apart config one other server) :
    Unaffected config one server after where
  scaler := h.otherScalers one hkeys
  workloads := h.workloads
  contains_eq place := by
    by_cases htarget : server.target? config other = some place
    · obtain ⟨scaler, fetched, hscaler, -, hfetched⟩ := exists_of_target? htarget
      obtain ⟨version, hchanged⟩ := h.target scaler place fetched hscaler htarget hfetched
      rw [contains, hchanged, contains, hfetched]
      rfl
    · rw [contains, h.otherDeployments place htarget, contains]
  target place hplace := h.otherDeployments place (hapart place hplace)

/-- Two servers that agree on what a reconcile of the scaler under the key does, apart from versions
and from the moments at which it ran. -/
structure Agrees (config : Config) (key : Key) (now later : Time) (server left right : Server) :
    Prop where
  scaler : Option.Rel (Scaler.SameButFresh now later) (Entries.get? left.scalers key)
    (Entries.get? right.scalers key)
  target : ∀ place, server.target? config key = some place →
    (Entries.get? left.deployments place).map (Deployment.withVersion none) =
      (Entries.get? right.deployments place).map (Deployment.withVersion none)

/-- One of two reconciles does the same before the other one and after it. -/
theorem agrees_of_foretold {now later soon late : Time} {first both second reversed : Server}
    {oneFirst otherSecond otherFirst oneSecond : Except ReconcileError Outcome}
    (hfirst : Foretold now config one server first oneFirst)
    (hboth : Foretold later config other first both otherSecond)
    (hsecond : Foretold soon config other server second otherFirst)
    (hreversed : Foretold late config one second reversed oneSecond)
    (hkeys : one ≠ other) (hapart : Apart config one other server) :
    oneSecond = oneFirst ∧ Agrees config one now late server both reversed := by
  have hone : Unaffected config one server second := hsecond.unaffected hkeys hapart
  have hother : Unaffected config other server first :=
    hfirst.unaffected (Ne.symm hkeys) hapart.symm
  refine ⟨?_, ?_, fun place hplace => ?_⟩
  · rw [hreversed.result_eq, hfirst.result_eq, hone.verdict?_eq]
  · rw [hboth.otherScalers one hkeys]
    cases hscaler : Entries.get? server.scalers one with
    | none =>
        rw [hfirst.missing hscaler, hreversed.missing (hone.scaler.trans hscaler)]
        exact .none
    | some scaler =>
        obtain ⟨version, hnew⟩ := hfirst.reported scaler hscaler
        obtain ⟨another, hagain⟩ := hreversed.reported scaler (hone.scaler.trans hscaler)
        rw [hnew, hagain, hone.outlook_eq hscaler]
        have hsame : ((server.outlook config scaler).condition config now).equivalent
            ((server.outlook config scaler).condition config late) = true :=
          (Condition.equivalent_iff _ _).2 ⟨rfl, rfl, rfl, rfl⟩
        exact .some (scaler.sameButFresh_reporting hsame version another)
  · obtain ⟨scaler, fetched, hscaler, -, hfetched⟩ := exists_of_target? hplace
    obtain ⟨version, hchanged⟩ := hfirst.target scaler place fetched hscaler hplace hfetched
    obtain ⟨another, hagain⟩ := hreversed.target scaler place fetched (hone.scaler.trans hscaler)
      (hone.target?_eq.trans hplace) ((hone.target place hplace).trans hfetched)
    have hkept := hboth.otherDeployments place (hother.target?_eq ▸ hapart place hplace)
    rw [hkept, hchanged, hagain]
    rfl

end Runs

/-! ## Two orders -/

/-- Two servers hold the same objects, apart from versions and from conditions that were taken
freshly: for the first scaler at the one pair of moments, for the second at the other. -/
structure SameButRuns (one other : Key) (moments others : Time × Time) (left right : Server) :
    Prop where
  oneScaler : Option.Rel (Scaler.SameButFresh moments.1 moments.2)
    (Entries.get? left.scalers one) (Entries.get? right.scalers one)
  otherScaler : Option.Rel (Scaler.SameButFresh others.1 others.2)
    (Entries.get? left.scalers other) (Entries.get? right.scalers other)
  scalers : ∀ key, key ≠ one → key ≠ other →
    Entries.get? left.scalers key = Entries.get? right.scalers key
  workloads : left.workloads = right.workloads
  deployments : ∀ key, (Entries.get? left.deployments key).map (Deployment.withVersion none) =
    (Entries.get? right.deployments key).map (Deployment.withVersion none)

/-- Reconciles of two scalers that read different Deployments come to the same results in either
order, and leave the same objects. -/
theorem reconcile_commutes {server : Server} (hreachable : server.Reachable)
    (hfaults : server.faults = []) (hhook : server.beforePatch = none) (config : Config)
    {one other : Key} (hkeys : one ≠ other) (hapart : Apart config one other server)
    (now later soon late : Time) :
    let first := reconcile now config store one server
    let both := reconcile later config store other first.2
    let second := reconcile soon config store other server
    let reversed := reconcile late config store one second.2
    reversed.1 = first.1 ∧ both.1 = second.1 ∧
      SameButRuns one other (now, late) (later, soon) both.2 reversed.2 := by
  have hundisturbed : server.Undisturbed := ⟨hfaults, hhook⟩
  have hfirst := reconcile_foretold hundisturbed hreachable.keyed now config one
  have hboth := reconcile_foretold hfirst.undisturbed (hreachable.reconcile now config one).keyed
    later config other
  have hsecond := reconcile_foretold hundisturbed hreachable.keyed soon config other
  have hreversed := reconcile_foretold hsecond.undisturbed
    (hreachable.reconcile soon config other).keyed late config one
  obtain ⟨hone, hagrees⟩ := agrees_of_foretold hfirst hboth hsecond hreversed hkeys hapart
  obtain ⟨hother, hagreesOther⟩ :=
    agrees_of_foretold hsecond hreversed hfirst hboth (Ne.symm hkeys) hapart.symm
  have hlooksOne := hsecond.unaffected hkeys hapart
  have hlooksOther := hfirst.unaffected (Ne.symm hkeys) hapart.symm
  refine ⟨hone, hother, hagrees.scaler, rel_symm (fun _ _ => .symm) hagreesOther.scaler,
    fun key hneOne hneOther => ?_, ?_, fun key => ?_⟩
  · rw [hboth.otherScalers key hneOther, hfirst.otherScalers key hneOne,
      hreversed.otherScalers key hneOne, hsecond.otherScalers key hneOther]
  · rw [hboth.workloads, hfirst.workloads, hreversed.workloads, hsecond.workloads]
  · by_cases htarget : server.target? config one = some key
    · exact hagrees.target key htarget
    · by_cases htargetOther : server.target? config other = some key
      · exact (hagreesOther.target key htargetOther).symm
      · rw [hboth.otherDeployments key (hlooksOther.target?_eq ▸ htargetOther),
          hfirst.otherDeployments key htarget,
          hreversed.otherDeployments key (hlooksOne.target?_eq ▸ htarget),
          hsecond.otherDeployments key htargetOther]

/-- The key of a second scaler. -/
def sampleOther : Key := ⟨"shop", "api"⟩

/-- The sample server with a second scaler, whose workload manages another Deployment. -/
def samplePair : Server :=
  List.foldl Deed.run sampleServer [
    .createScaler
      { metadata := { name := some "api", ns := some "shop", uid := some "other" }
        spec := ⟨2, { apiVersion := none, kind := none, name := "api", uid := some "backend" }⟩
        status := none },
    .createWorkload
      { metadata := { name := some "api", ns := some "shop", uid := some "backend" }
        spec := ⟨none, []⟩
        status := some ⟨[], [⟨none, some "Deployment", "back", none⟩]⟩ },
    .createDeployment { metadata := { name := some "back", ns := some "shop" } }]

theorem apart_samplePair : Apart {} sampleKey sampleOther samplePair := by
  have hone : samplePair.target? {} sampleKey = some ⟨"shop", "front"⟩ := by decide +kernel
  have hother : samplePair.target? {} sampleOther = some ⟨"shop", "back"⟩ := by decide +kernel
  intro place hplace
  rw [hone] at hplace
  obtain rfl := Option.some.inj hplace
  rw [hother]
  decide

theorem reconcile_commutes_samplePair :
    let first := reconcile default {} store sampleKey samplePair
    let both := reconcile default {} store sampleOther first.2
    let second := reconcile default {} store sampleOther samplePair
    let reversed := reconcile default {} store sampleKey second.2
    reversed.1 = first.1 ∧ both.1 = second.1 ∧
      SameButRuns sampleKey sampleOther (default, default) (default, default) both.2 reversed.2 :=
  reconcile_commutes (reachable_sampleServer.foldl _) rfl rfl {} (by decide) apart_samplePair
    default default default default

end Reconcile

end ReplicaKeeper
