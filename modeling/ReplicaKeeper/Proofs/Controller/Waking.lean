import ReplicaKeeper.Controller.Watch
import ReplicaKeeper.Reconcile.Step

/-!
# Which scalers a workload wakes

When a workload changes, the controller wakes the scalers that its cache finds for the workload, and
a reconcile begins by reading the workload that its scaler points to.  These are two ways to follow
the same reference: the scalers that are woken are those that read the workload first,
`workload_wakes_readers`.  This holds for every cache that has each scaler once, under its own name
and namespace, and `filled_follow` says that a watch of scalers fills its cache in this way.
-/

set_option autoImplicit false

namespace ReplicaKeeper

open Entries

/-! ## The order of references -/

namespace ObjectRef

theorem lt_iff (left right : ObjectRef) :
    left < right ↔ left.ns < right.ns ∨ left.ns = right.ns ∧ left.name < right.name := by
  change left.before right = true ↔ _
  unfold before
  cases left.ns with
  | none => cases right.ns <;> simp
  | some a => cases right.ns <;> simp

theorem lt_irrefl (reference : ObjectRef) : ¬ reference < reference := by
  rw [lt_iff]
  rintro (hns | ⟨-, hname⟩)
  · cases hgiven : reference.ns with
    | none =>
        rw [hgiven] at hns
        simp at hns
    | some ns =>
        rw [hgiven] at hns
        exact String.lt_irrefl ns (Option.some_lt_some.1 hns)
  · exact String.lt_irrefl reference.name hname

/-- No namespace comes before every other one. -/
theorem ns_lt_trans {a b c : Option String} (hab : a < b) (hbc : b < c) : a < c := by
  cases a with
  | none => cases c <;> simp_all
  | some a =>
      cases b with
      | none => simp at hab
      | some b =>
          cases c with
          | none => simp at hbc
          | some c => exact String.lt_trans (Option.some_lt_some.1 hab) (Option.some_lt_some.1 hbc)

theorem lt_trans {first second third : ObjectRef} (h : first < second) (hnext : second < third) :
    first < third := by
  rw [lt_iff] at h hnext ⊢
  rcases h with hns | ⟨hns, hname⟩
  · rcases hnext with hns' | ⟨hns', -⟩
    · exact .inl (ns_lt_trans hns hns')
    · exact .inl (hns' ▸ hns)
  · rcases hnext with hns' | ⟨hns', hname'⟩
    · exact .inl (hns ▸ hns')
    · exact .inr ⟨hns.trans hns', String.lt_trans hname hname'⟩

theorem ns_lt_of_not_lt {a b : Option String} (hlt : ¬ a < b) (hne : b ≠ a) : b < a := by
  cases a with
  | none =>
      cases b with
      | none => exact absurd rfl hne
      | some b => simp at hlt
  | some a =>
      cases b with
      | none => simp
      | some b =>
          rw [Option.some_lt_some] at hlt ⊢
          refine Std.not_le.1 fun hle => hne (congrArg some ?_)
          exact String.le_antisymm (Std.not_lt.1 hlt) hle

theorem lt_of_not_lt {first second : ObjectRef} (hlt : ¬ first < second) (hne : second ≠ first) :
    second < first := by
  rw [lt_iff, not_or, not_and] at hlt
  rw [lt_iff]
  obtain ⟨hns, hname⟩ := hlt
  by_cases hsame : second.ns = first.ns
  · refine .inr ⟨hsame, Std.not_le.1 fun hle => hne ?_⟩
    have hnames := String.le_antisymm (Std.not_lt.1 (hname hsame.symm)) hle
    cases first
    cases second
    simp_all
  · exact .inl (ns_lt_of_not_lt hns hsame)

end ObjectRef

/-! ## The cache that a watch fills -/

/-- The scalers that an event shows. -/
def WatchEvent.scalers : WatchEvent → List Scaler
  | .applied scaler | .deleted scaler => [scaler]
  | .restarted scalers => scalers

/-- A scaler with a namespace has the reference. -/
def ObjectRef.IsOf (reference : ObjectRef) (scaler : Scaler) : Prop :=
  ObjectRef.of? scaler.metadata = some reference ∧ reference.ns.isSome = true

instance (reference : ObjectRef) (scaler : Scaler) : Decidable (reference.IsOf scaler) :=
  inferInstanceAs (Decidable (_ ∧ _))

namespace Cache

/-- Every scaler is under its own reference. -/
def Labelled (cache : Cache) : Prop :=
  ∀ reference scaler, get? cache reference = some scaler → reference.IsOf scaler

/-- A cache that has scalers with name and namespace, each of them once. -/
structure Filled (cache : Cache) : Prop where
  labelled : cache.Labelled
  once : (keys cache).Nodup

/-- What a watch that shows the events in turn makes of the cache. -/
def follow (events : List WatchEvent) (cache : Cache) : Except WatchError Cache :=
  events.foldlM (fun cache event => cache.apply event) cache

/-- A cache as a watch fills it: in the order of the references. -/
structure Sorted (cache : Cache) : Prop where
  labelled : cache.Labelled
  ordered : Ordered cache

theorem Sorted.filled {cache : Cache} (h : cache.Sorted) : cache.Filled where
  labelled := h.labelled
  once := by
    refine List.pairwise_map.2 (h.ordered.imp fun hlt heq => ?_)
    rw [heq] at hlt
    exact ObjectRef.lt_irrefl _ hlt

theorem sorted_nil : Sorted [] where
  labelled _ _ h := by cases h
  ordered := ordered_nil

theorem named_eq_ok {metadata : ObjectMeta} {reference : ObjectRef}
    (h : ObjectRef.named metadata = .ok reference) : ObjectRef.of? metadata = some reference := by
  unfold ObjectRef.named at h
  split at h
  · next hsome => rw [hsome, Except.ok.inj h]
  · cases h

/-- A scaler with a namespace is put in its place. -/
theorem Sorted.keep {cache kept : Cache} (h : cache.Sorted) {scaler : Scaler}
    (hns : scaler.metadata.ns.isSome) (hkept : cache.keep scaler = .ok kept) : kept.Sorted := by
  unfold Cache.keep at hkept
  cases hnamed : ObjectRef.named scaler.metadata with
  | error error =>
      rw [hnamed] at hkept
      cases hkept
  | ok reference =>
      rw [hnamed] at hkept
      obtain rfl := Except.ok.inj hkept
      have hof := named_eq_ok hnamed
      have hreference : reference.IsOf scaler := by
        refine ⟨hof, ?_⟩
        obtain ⟨name, -, rfl⟩ := Option.map_eq_some_iff.1 hof
        exact hns
      refine ⟨fun other found hfound => ?_,
        h.ordered.insert ObjectRef.lt_trans ObjectRef.lt_of_not_lt _ _⟩
      rw [get?_insert] at hfound
      split at hfound
      · next heq =>
        subst heq
        obtain rfl := Option.some.inj hfound
        exact hreference
      · exact h.labelled other found hfound

theorem Sorted.erase {cache : Cache} (h : cache.Sorted) (reference : ObjectRef) :
    Sorted (Entries.erase reference cache) where
  labelled other found hfound := by
    rw [get?_erase] at hfound
    split at hfound
    · cases hfound
    · exact h.labelled other found hfound
  ordered := h.ordered.erase reference

/-- What keeps the cache sorted at every step keeps it so to the end. -/
theorem sorted_of_foldlM {α : Type} {steps : List α} {next : Cache → α → Except WatchError Cache}
    (hnext : ∀ step ∈ steps, ∀ before after, before.Sorted → next before step = .ok after →
      after.Sorted)
    {first last : Cache} (hfirst : first.Sorted) (h : steps.foldlM next first = .ok last) :
    last.Sorted := by
  induction steps generalizing first with
  | nil =>
      obtain rfl := Except.ok.inj h
      exact hfirst
  | cons step steps ih =>
      rw [List.foldlM_cons] at h
      cases hstep : next first step with
      | error error =>
          rw [hstep] at h
          cases h
      | ok second =>
          rw [hstep] at h
          exact ih (fun other hother => hnext other (List.mem_cons_of_mem _ hother))
            (hnext step (List.mem_cons_self ..) first second hfirst hstep) h

/-- One event keeps the cache sorted. -/
theorem Sorted.apply {cache after : Cache} (h : cache.Sorted) {event : WatchEvent}
    (hns : ∀ scaler ∈ event.scalers, scaler.metadata.ns.isSome)
    (hafter : cache.apply event = .ok after) : after.Sorted := by
  cases event with
  | applied scaler => exact h.keep (hns scaler (List.mem_singleton_self _)) hafter
  | deleted scaler =>
      unfold Cache.apply at hafter
      dsimp only at hafter
      cases hnamed : ObjectRef.named scaler.metadata with
      | error error =>
          rw [hnamed] at hafter
          cases hafter
      | ok reference =>
          rw [hnamed] at hafter
          obtain rfl := Except.ok.inj hafter
          exact h.erase reference
  | restarted scalers =>
      refine sorted_of_foldlM (fun scaler hscaler before kept hbefore hkept => ?_) sorted_nil hafter
      exact hbefore.keep (hns scaler hscaler) hkept

/-- A watch of scalers with namespaces fills the cache. -/
theorem filled_follow {events : List WatchEvent} {cache : Cache}
    (hns : ∀ event ∈ events, ∀ scaler ∈ event.scalers, scaler.metadata.ns.isSome)
    (h : follow events [] = .ok cache) : cache.Filled := by
  refine (sorted_of_foldlM (fun event hevent before after hbefore hafter => ?_) sorted_nil h).filled
  exact hbefore.apply (hns event hevent) hafter

/-! ## The scalers that refer to a workload -/

theorem mem_referencing {cache : Cache} (h : (keys cache).Nodup) (workload : Workload)
    (reference : ObjectRef) :
    reference ∈ cache.referencing workload ↔ ∃ scaler, get? cache reference = some scaler ∧
      scaler.metadata.ns = workload.metadata.ns ∧
      scaler.spec.workloadRef.name = workloadName workload := by
  unfold referencing
  rw [List.mem_map]
  constructor
  · rintro ⟨⟨found, scaler⟩, hfound, rfl⟩
    obtain ⟨hmem, hrefers⟩ := List.mem_filter.1 hfound
    simp only [Bool.and_eq_true, decide_eq_true_eq] at hrefers
    exact ⟨scaler, get?_of_mem h hmem, hrefers⟩
  · rintro ⟨scaler, hscaler, hrefers⟩
    refine ⟨(reference, scaler), List.mem_filter.2 ⟨mem_of_get?_eq_some hscaler, ?_⟩, rfl⟩
    simpa only [Bool.and_eq_true, decide_eq_true_eq] using hrefers

theorem nodup_referencing {cache : Cache} (h : (keys cache).Nodup) (workload : Workload) :
    (cache.referencing workload).Nodup :=
  h.sublist (List.filter_sublist.map _)

/-! ## The scalers that read a workload -/

/-- The references are those of the scalers in the cache whose reconcile begins with reading the
workload under the key. -/
structure WakesReaders (cache : Cache) (key : Key) (references : List ObjectRef) : Prop where
  once : references.Nodup
  cached : ∀ reference ∈ references, ∃ scaler, get? cache reference = some scaler
  readers : ∀ reference scaler, get? cache reference = some scaler →
    ∀ now config response, reference ∈ references ↔
      (Reconcile.step now config scaler response {}).2 = some (.getWorkload key)

/-- A scaler with a namespace first reads the workload in its namespace that it names. -/
theorem reads_iff {scaler : Scaler} (hns : scaler.metadata.ns.isSome) (key : Key) (now : Time)
    (config : Config) (response : Option Response) :
    (Reconcile.step now config scaler response {}).2 = some (.getWorkload key) ↔
      scaler.metadata.ns = some key.ns ∧ scaler.spec.workloadRef.name = key.name := by
  obtain ⟨ns, hns⟩ := Option.isSome_iff_exists.1 hns
  have hnamespace : Reconcile.namespaceOf scaler = ns := by
    unfold Reconcile.namespaceOf
    rw [hns]
    rfl
  change some (Request.getWorkload ⟨Reconcile.namespaceOf scaler, _⟩) = _ ↔ _
  rw [hnamespace, hns, Option.some.injEq, Request.getWorkload.injEq, Option.some.injEq]
  cases key
  simp

end Cache

/-- A workload that has changed wakes the scalers that read it, and each of them once. -/
theorem workload_wakes_readers {cache : Cache} (h : cache.Filled) {workload : Workload} {key : Key}
    (hns : workload.metadata.ns = some key.ns) (hname : workload.metadata.name = some key.name) :
    (Controller.Notice.workload workload).reasons cache = .ok (cache.referencing workload) ∧
      cache.WakesReaders key (cache.referencing workload) := by
  have hnamed : ObjectRef.named workload.metadata =
      .ok ⟨workload.metadata.ns, key.name⟩ := by
    unfold ObjectRef.named ObjectRef.of?
    rw [hname]
    rfl
  have hworkload : Cache.workloadName workload = key.name := by
    unfold Cache.workloadName
    rw [hname]
    rfl
  refine ⟨?_, Cache.nodup_referencing h.once workload, fun reference hmem => ?_,
    fun reference scaler hscaler now config response => ?_⟩
  · unfold Controller.Notice.reasons
    dsimp only
    rw [hnamed]
    rfl
  · obtain ⟨scaler, hscaler, -⟩ := (Cache.mem_referencing h.once workload reference).1 hmem
    exact ⟨scaler, hscaler⟩
  · obtain ⟨hof, hsome⟩ := h.labelled reference scaler hscaler
    obtain ⟨name, -, rfl⟩ := Option.map_eq_some_iff.1 hof
    rw [Cache.mem_referencing h.once, Cache.reads_iff hsome, hworkload, hns]
    constructor
    · rintro ⟨other, hother, hrefers⟩
      obtain rfl := Option.some.inj (hscaler.symm.trans hother)
      exact hrefers
    · exact fun hrefers => ⟨scaler, hscaler, hrefers⟩

/-- The events of a watch that shows four scalers and loses one of them again. -/
def sampleWatch : List WatchEvent :=
  let scaler (ns name workload : String) : Scaler :=
    { metadata := { name := some name, ns := some ns }
      spec := ⟨1, { apiVersion := none, kind := none, name := workload, uid := none }⟩
      status := none }
  [.restarted [scaler "shop" "a" "web", scaler "shop" "b" "db"],
    .applied (scaler "other" "d" "web"), .applied (scaler "shop" "c" "web"),
    .applied (scaler "shop" "b" "web"), .deleted (scaler "shop" "c" "web")]

/-- A workload that two of these scalers refer to; a third one is in another namespace. -/
def sampleChanged : Workload where
  metadata := { name := some "web", ns := some "shop" }
  spec := ⟨none, []⟩
  status := none

theorem workload_wakes_readers_sampleWatch :
    ∃ cache, Cache.follow sampleWatch [] = .ok cache ∧ cache.Filled ∧
      sampleChanged.metadata.ns = some "shop" ∧ sampleChanged.metadata.name = some "web" ∧
      cache.referencing sampleChanged = [⟨some "shop", "a"⟩, ⟨some "shop", "b"⟩] ∧
      (Controller.Notice.workload sampleChanged).reasons cache =
        .ok (cache.referencing sampleChanged) ∧
      cache.WakesReaders ⟨"shop", "web"⟩ (cache.referencing sampleChanged) := by
  have hns : ∀ event ∈ sampleWatch, ∀ scaler ∈ event.scalers, scaler.metadata.ns.isSome := by
    decide +kernel
  obtain ⟨cache, hcache, hreferencing⟩ : ∃ cache, Cache.follow sampleWatch [] = .ok cache ∧
      cache.referencing sampleChanged = [⟨some "shop", "a"⟩, ⟨some "shop", "b"⟩] :=
    ⟨_, rfl, by decide +kernel⟩
  have hfilled := Cache.filled_follow hns hcache
  exact ⟨cache, hcache, hfilled, rfl, rfl, hreferencing,
    workload_wakes_readers hfilled rfl rfl⟩

end ReplicaKeeper
